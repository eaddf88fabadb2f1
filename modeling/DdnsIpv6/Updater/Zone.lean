import DdnsIpv6.Updater.Cloudflare
import DdnsIpv6.Lib.Ipv6.RoundTrip
import DdnsIpv6.Lib.Remote
import DdnsIpv6.Lib.Url
import Mathlib.Data.List.Nodup

/-!
# A zone and its API

What `CloudflareUpdater` talks to: a zone of DNS records, and an API that reads the URL of a request by the standard
rules, lists the records that match the decoded filters, patches the record with the given id and creates records
under fresh ids. The records of a zone have distinct ids, and an AAAA record holds an address.

- `serve_list`: the list request for a domain is answered with the AAAA records of the name that its URL is decoded to
  (`queriedName`);
- `serve_patch`, `serve_create`: the two writes of the updater.
-/

namespace DdnsIpv6

open Lib Lib.Url

/-! ## Zones -/

/-- Zone ids and record ids are made of letters and digits. -/
def PlainId (id : String) : Prop := ∀ c ∈ id.toList, c.isAlphanum = true

instance (id : String) : Decidable (PlainId id) :=
  decidable_of_iff (id.toList.all Char.isAlphanum = true) List.all_eq_true

/-- The API rejects an AAAA record that holds no address. -/
def ValidContent (type content : String) : Prop := type = "AAAA" → (Ipv6Addr.fromStr content).isSome = true

instance (type content : String) : Decidable (ValidContent type content) := inferInstanceAs (Decidable (_ → _))

/-- The URL of the records of a zone. -/
def zoneRecordsUrl (zoneId : String) : List Char := (cfApiBase ++ ("/zones/" ++ zoneId ++ "/dns_records")).toList

/-- The URL of one of them. -/
def zoneRecordUrl (zoneId id : String) : List Char := zoneRecordsUrl zoneId ++ ("/" ++ id).toList

structure Zone where
  records : List CfDnsRecord
  plain : ∀ r ∈ records, PlainId r.id
  distinct : (records.map (·.id)).Nodup
  valid : ∀ r ∈ records, ValidContent r.type r.content

/-- A record with another content. -/
def CfDnsRecord.withContent (r : CfDnsRecord) (content : String) : CfDnsRecord := { r with content := content }

/-- The contents of a zone after the record with the given id got another content. -/
def patched (id content : String) (rs : List CfDnsRecord) : List CfDnsRecord :=
  rs.map fun r => if r.id = id then r.withContent content else r

theorem map_id_patched (id content : String) (rs : List CfDnsRecord) :
    (patched id content rs).map (·.id) = rs.map (·.id) := by
  rw [patched, List.map_map]
  refine List.map_congr_left fun r _ => ?_
  rw [Function.comp_apply]
  split <;> rfl

/-- A record of the patched zone, unchanged or with the new content. -/
theorem mem_patched {id content : String} {rs : List CfDnsRecord} {r : CfDnsRecord} (h : r ∈ patched id content rs) :
    (r ∈ rs ∧ r.id ≠ id) ∨ ∃ s ∈ rs, s.id = id ∧ r = s.withContent content := by
  obtain ⟨s, hs, rfl⟩ := List.mem_map.1 h
  split
  · rename_i hid
    exact Or.inr ⟨s, hs, hid, rfl⟩
  · rename_i hid
    exact Or.inl ⟨hs, hid⟩

def Zone.patch (z : Zone) (id content : String) (h : ∀ r ∈ z.records, r.id = id → ValidContent r.type content) :
    Zone where
  records := patched id content z.records
  plain := fun r hr => by
    rcases mem_patched hr with ⟨hs, -⟩ | ⟨s, hs, -, rfl⟩
    · exact z.plain r hs
    · exact z.plain s hs
  distinct := by
    rw [map_id_patched]
    exact z.distinct
  valid := fun r hr => by
    rcases mem_patched hr with ⟨hs, -⟩ | ⟨s, hs, hid, rfl⟩
    · exact z.valid r hs
    · exact h s hs hid

def Zone.create (z : Zone) (r : CfDnsRecord) (hplain : PlainId r.id) (hfresh : r.id ∉ z.records.map (·.id))
    (hvalid : ValidContent r.type r.content) : Zone where
  records := z.records ++ [r]
  plain := fun s hs => by
    rcases List.mem_append.1 hs with hs | hs
    · exact z.plain s hs
    · rw [List.mem_singleton.1 hs]
      exact hplain
  distinct := by
    rw [List.map_append, List.map_singleton, List.nodup_append]
    refine ⟨z.distinct, List.nodup_singleton _, ?_⟩
    rintro a ha b hb rfl
    exact hfresh (List.mem_singleton.1 hb ▸ ha)
  valid := fun s hs => by
    rcases List.mem_append.1 hs with hs | hs
    · exact z.valid s hs
    · rw [List.mem_singleton.1 hs]
      exact hvalid

/-- Records with one id are one record. -/
theorem Zone.eq_of_id_eq (z : Zone) {r s : CfDnsRecord} (hr : r ∈ z.records) (hs : s ∈ z.records) (h : r.id = s.id) :
    r = s := List.inj_on_of_nodup_map z.distinct hr hs h

/-! ## The API -/

/-- The API of one zone: the id of the zone, and the ids of new records. -/
structure ZoneApi where
  zoneId : String
  next : List CfDnsRecord → String
  plainZoneId : PlainId zoneId
  fresh : ∀ rs, next rs ∉ rs.map (·.id)
  plain : ∀ rs, PlainId (next rs)

/-- The record matches a filter of the query, if there is one. -/
def filterMatches (key : List Char) (q : List Char) (value : String) : Bool :=
  (Url.get key q).all fun v => v == utf8 value.toList

/-- A response of the API without a result of its own. -/
def refusal (status : Nat) (message : String) : HttpResponse :=
  ⟨status, none, .ok ⟨"", .ok ⟨false, [⟨status, message⟩], none⟩, .ok ⟨false, [⟨status, message⟩], none⟩⟩⟩

/-- A list does not parse as a record. -/
def listAnswer (rs : List CfDnsRecord) : HttpResponse :=
  ⟨200, none, .ok ⟨"", .ok ⟨true, [], some rs⟩, .error "invalid type: sequence, expected struct CfDnsRecord"⟩⟩

def recordAnswer (r : CfDnsRecord) : HttpResponse :=
  ⟨200, none, .ok ⟨"", .error "invalid type: map, expected a sequence", .ok ⟨true, [], some r⟩⟩⟩

namespace ZoneApi

variable (api : ZoneApi)

def recordsUrl : List Char := zoneRecordsUrl api.zoneId

def recordUrl (id : String) : List Char := zoneRecordUrl api.zoneId id

/-- What the API does with a request: its answer, and the zone afterwards. -/
def serve (req : HttpRequest) (z : Zone) : HttpResponse × Zone :=
  let url := req.url.toList
  match req.method, req.body with
  | .get, none =>
    if location url = api.recordsUrl then
      (listAnswer (z.records.filter fun r =>
        filterMatches "type".toList (query url) r.type && filterMatches "name".toList (query url) r.name), z)
    else (refusal 404 "not found", z)
  | .patch, some (.updateRecord content) =>
    match z.records.find? fun r => location url = api.recordUrl r.id with
    | none => (refusal 404 "not found", z)
    | some r =>
      if h : ∀ s ∈ z.records, s.id = r.id → ValidContent s.type content then
        (recordAnswer (r.withContent content), z.patch r.id content h)
      else (refusal 400 "invalid content", z)
  | .post, some (.createRecord type name content ttl) =>
    if location url = api.recordsUrl then
      let r : CfDnsRecord := ⟨api.next z.records, type, name, content, ttl⟩
      if h : ValidContent type content then
        (recordAnswer r, z.create r (api.plain _) (api.fresh _) h)
      else (refusal 400 "invalid content", z)
    else (refusal 404 "not found", z)
  | _, _ => (refusal 400 "bad request", z)

end ZoneApi

/-! ## The updater at the API -/

/-- An answer to the request that reports success. -/
def ReportsSuccess (req : HttpRequest) (answer : Except String HttpResponse) : Prop :=
  ∃ response body, answer = .ok response ∧ response.isSuccess = true ∧ response.text = .ok body ∧
    match req.method with
    | .get => ∃ r, body.asList = .ok r ∧ r.success = true
    | .patch | .post => ∃ r, body.asRecord = .ok r ∧ r.success = true

/-- The records that an answer lists. -/
def listed (answer : Except String HttpResponse) : List CfDnsRecord :=
  match answer with
  | .error _ => []
  | .ok response =>
    match response.text.bind BodyText.asList with
    | .ok ⟨_, _, some records⟩ => records
    | _ => []

theorem listed_of_body {response : HttpResponse} {body : BodyText} {r : CfApiResponse (List CfDnsRecord)}
    (ht : response.text = .ok body) (hp : body.asList = .ok r) : listed (.ok response) = r.result.getD [] := by
  have hbind : response.text.bind BodyText.asList = .ok r := by rw [ht, Except.bind, hp]
  obtain ⟨success, errors, result⟩ := r
  simp only [listed, hbind]
  cases result <;> rfl

namespace ZoneApi

variable (api : ZoneApi) (token : String)

/-- The API as a service to an HTTP client. Of the answers to a list request, the listed records matter. -/
def service : Service Zone HttpRequest (Except String HttpResponse) where
  serve := fun req z => (.ok (api.serve req z).1, (api.serve req z).2)
  ok := ReportsSuccess
  same := fun req a b => req.method = .get → listed b = listed a
  same_refl := fun _ _ _ => rfl

/-- The HTTP client, connected to the API. Only the API changes the zone: sleeping does not. -/
def http : Http (Remote api.service) where
  send := fun req w => w.send req
  sleep := fun _ w => w

theorem http_send (req : HttpRequest) (w : Remote api.service) : api.http.send req w = w.send req := rfl

/-- The updater that is configured for the zone. -/
def updater : CloudflareUpdater := ⟨api.zoneId, token⟩

end ZoneApi

/-! ## What the API makes of the requests -/

/-- The name that the API decodes from the list request for a domain. -/
def queriedName (domain : String) : List UInt8 :=
  formDecode ((readTail (urlencoding domain).toList).takeWhile (· != '&'))

/-- The list request for the domain asks for the records of that name. -/
def QueriesOwn (domain : String) : Prop := queriedName domain = utf8 domain.toList

instance (domain : String) : Decidable (QueriesOwn domain) := inferInstanceAs (Decidable (_ = _))

theorem isVisible_of_isAlphanum {c : Char} (h : c.isAlphanum = true) : isVisible c = true ∧ c ≠ '?' := by
  have hdef : c.isAlphanum = (((decide (65 ≤ c.toNat ∧ c.toNat ≤ 90)) ||
      (decide (97 ≤ c.toNat) && decide (c.toNat ≤ 122))) || (decide (48 ≤ c.toNat) && decide (c.toNat ≤ 57))) := rfl
  rw [hdef] at h
  simp only [Bool.or_eq_true, Bool.and_eq_true, decide_eq_true_eq] at h
  have hne : ∀ d : Char, c.toNat ≠ d.toNat → c ≠ d := fun d hd he => hd (congrArg Char.toNat he)
  have htrim : isTrimmed c = false := decide_eq_false (by omega)
  have hhash : c.toNat ≠ '#'.toNat := by
    change c.toNat ≠ 35
    omega
  have hmark : c.toNat ≠ '?'.toNat := by
    change c.toNat ≠ 63
    omega
  refine ⟨?_, hne '?' hmark⟩
  rw [isVisible, htrim, bne_iff_ne.2 (hne '#' hhash)]
  rfl

section Urls

variable {zoneId id : String}

/-- The URLs of the API hold visible characters only, and no `?`. -/
theorem zoneRecordsUrl_visible (hzone : PlainId zoneId) {c : Char} (h : c ∈ zoneRecordsUrl zoneId) :
    isVisible c = true ∧ c ≠ '?' := by
  simp only [zoneRecordsUrl, String.toList_append, List.mem_append] at h
  have hall : (cfApiBase.toList ++ "/zones/".toList ++ "/dns_records".toList).all
      (fun c => isVisible c && c != '?') = true := by decide
  have hfixed : ∀ c ∈ cfApiBase.toList ++ "/zones/".toList ++ "/dns_records".toList,
      isVisible c = true ∧ c ≠ '?' := by
    intro c hc
    have hc := List.all_eq_true.1 hall c hc
    rw [Bool.and_eq_true, bne_iff_ne] at hc
    exact hc
  rcases h with h | (h | h) | h
  · exact hfixed c (by simp [h])
  · exact hfixed c (by simp only [List.mem_append, h, or_true, true_or])
  · exact isVisible_of_isAlphanum (hzone c h)
  · exact hfixed c (by simp only [List.mem_append, h, or_true])

theorem zoneRecordUrl_visible (hzone : PlainId zoneId) (hid : PlainId id) {c : Char}
    (h : c ∈ zoneRecordUrl zoneId id) : isVisible c = true ∧ c ≠ '?' := by
  simp only [zoneRecordUrl, String.toList_append, List.mem_append] at h
  rcases h with h | h | h
  · exact zoneRecordsUrl_visible hzone h
  · have hslash : c = '/' := by simpa using h
    subst hslash
    decide
  · exact isVisible_of_isAlphanum (hid c h)

theorem zoneRecordsUrl_ne_nil (zoneId : String) : zoneRecordsUrl zoneId ≠ [] := by
  simp [zoneRecordsUrl, String.toList_append, cfApiBase]

theorem location_zoneRecordsUrl (hzone : PlainId zoneId) : location (zoneRecordsUrl zoneId) = zoneRecordsUrl zoneId :=
  location_self (zoneRecordsUrl_ne_nil zoneId) (fun _ hc => (zoneRecordsUrl_visible hzone hc).1)
    fun hc => (zoneRecordsUrl_visible hzone hc).2 rfl

theorem location_zoneRecordUrl (hzone : PlainId zoneId) (hid : PlainId id) :
    location (zoneRecordUrl zoneId id) = zoneRecordUrl zoneId id :=
  location_self (by simp [zoneRecordUrl]) (fun _ hc => (zoneRecordUrl_visible hzone hid hc).1)
    fun hc => (zoneRecordUrl_visible hzone hid hc).2 rfl

/-- Of a list request, whatever the domain is. -/
theorem location_list (hzone : PlainId zoneId) (x : List Char) :
    location (zoneRecordsUrl zoneId ++ '?' :: ("type=AAAA&name=".toList ++ x)) = zoneRecordsUrl zoneId :=
  location_append (fun _ hc => (zoneRecordsUrl_visible hzone hc).1) (List.all_eq_true.1 (by decide))
    fun hc => (zoneRecordsUrl_visible hzone hc).2 rfl

variable (self : CloudflareUpdater) (method : Method) (body : Option CfBody)

theorem listPath_url (domain : String) : (self.httpRequest method (self.listPath domain) body).url.toList =
    zoneRecordsUrl self.zoneId ++ '?' :: ("type=AAAA&name=".toList ++ (urlencoding domain).toList) := by
  simp [CloudflareUpdater.httpRequest, CloudflareUpdater.listPath, CloudflareUpdater.recordsPath, zoneRecordsUrl,
    String.toList_append]

theorem recordPath_url (id : String) :
    (self.httpRequest method (self.recordPath id) body).url.toList = zoneRecordUrl self.zoneId id := by
  simp [CloudflareUpdater.httpRequest, CloudflareUpdater.recordPath, CloudflareUpdater.recordsPath, zoneRecordUrl,
    zoneRecordsUrl, String.toList_append]

theorem recordsPath_url : (self.httpRequest method self.recordsPath body).url.toList = zoneRecordsUrl self.zoneId :=
  rfl

end Urls

namespace ZoneApi

variable (api : ZoneApi) (token : String)

/-- Records have different URLs. -/
theorem recordUrl_inj {id id' : String} : api.recordUrl id = api.recordUrl id' ↔ id = id' := by
  rw [recordUrl, recordUrl, zoneRecordUrl, zoneRecordUrl, List.append_cancel_left_eq, String.toList_inj,
    String.append_right_inj]

theorem location_recordsUrl : location api.recordsUrl = api.recordsUrl := location_zoneRecordsUrl api.plainZoneId

theorem location_recordUrl {id : String} (hid : PlainId id) : location (api.recordUrl id) = api.recordUrl id :=
  location_zoneRecordUrl api.plainZoneId hid

/-- The list request for a domain. -/
def listRequest (domain : String) : HttpRequest :=
  (api.updater token).httpRequest .get ((api.updater token).listPath domain) none

def patchRequest (id content : String) : HttpRequest :=
  (api.updater token).httpRequest .patch ((api.updater token).recordPath id) (some (.updateRecord content))

def createRequest (domain content : String) : HttpRequest :=
  (api.updater token).httpRequest .post (api.updater token).recordsPath
    (some (.createRecord "AAAA" domain content 120))

theorem listRequest_url (domain : String) : (api.listRequest token domain).url.toList =
    api.recordsUrl ++ '?' :: ("type=AAAA&name=".toList ++ (urlencoding domain).toList) := listPath_url _ _ _ domain

theorem patchRequest_url (id content : String) :
    (api.patchRequest token id content).url.toList = api.recordUrl id := recordPath_url _ _ _ id

theorem createRequest_url (domain content : String) :
    (api.createRequest token domain content).url.toList = api.recordsUrl := rfl

theorem location_listRequest (domain : String) :
    location (api.listRequest token domain).url.toList = api.recordsUrl := by
  rw [listRequest_url]
  exact location_list api.plainZoneId _

theorem query_listRequest (domain : String) : query (api.listRequest token domain).url.toList =
    "type=AAAA&name=".toList ++ readTail (urlencoding domain).toList := by
  rw [listRequest_url]
  exact query_append (fun _ hc => (zoneRecordsUrl_visible api.plainZoneId hc).1) (List.all_eq_true.1 (by decide))
    fun hc => (zoneRecordsUrl_visible api.plainZoneId hc).2 rfl

/-- The filters of the list request. -/
theorem get_type_name (x : List Char) :
    Url.get "type".toList ("type=AAAA&name=".toList ++ x) = some (utf8 "AAAA".toList) ∧
    Url.get "name".toList ("type=AAAA&name=".toList ++ x) = some (formDecode (x.takeWhile (· != '&'))) := by
  have hsplit : "type=AAAA&name=".toList ++ x = "type=AAAA".toList ++ '&' :: ("name".toList ++ '=' :: x) := by simp
  have hkey : keyValue "type=AAAA".toList = (utf8 "type".toList, utf8 "AAAA".toList) := by decide
  rw [hsplit, get_append _ (by decide), get_append _ (by decide), hkey]
  refine ⟨if_pos rfl, ?_⟩
  rw [if_neg (by decide)]
  exact get_last (by decide) (by decide) (by decide)

end ZoneApi

/-! ## What the API does with the requests -/

/-- The records that the list request for a domain asks for. -/
def Zone.queried (z : Zone) (domain : String) : List CfDnsRecord :=
  z.records.filter fun r => r.type = "AAAA" ∧ utf8 r.name.toList = queriedName domain

/-- A record that is listed first is an AAAA record with the name that the API decodes. -/
theorem Zone.of_queried_cons {z : Zone} {domain : String} {r : CfDnsRecord} {rs : List CfDnsRecord}
    (h : z.queried domain = r :: rs) :
    r ∈ z.records ∧ r.type = "AAAA" ∧ utf8 r.name.toList = queriedName domain := by
  have hr : r ∈ z.queried domain := by
    rw [h]
    exact List.mem_cons_self
  obtain ⟨hmem, hown⟩ := List.mem_filter.1 hr
  exact ⟨hmem, of_decide_eq_true hown⟩

theorem filterMatches_iff {key q : List Char} {v : List UInt8} (h : Url.get key q = some v) (value : String) :
    filterMatches key q value = true ↔ utf8 value.toList = v := by
  rw [filterMatches, h, Option.all_some, beq_iff_eq]
  exact eq_comm

theorem patched_patched (id content : String) (rs : List CfDnsRecord) :
    patched id content (patched id content rs) = patched id content rs := by
  rw [patched, patched, List.map_map]
  refine List.map_congr_left fun r _ => ?_
  rw [Function.comp_apply]
  by_cases h : r.id = id
  · rw [if_pos h, if_pos (show (r.withContent content).id = id from h)]
    rfl
  · rw [if_neg h, if_neg h]

namespace ZoneApi

variable (api : ZoneApi) (token : String) {z : Zone}

/-- **The list request** is answered with the AAAA records of the name that the API decodes. -/
theorem serve_list (z : Zone) (domain : String) :
    api.serve (api.listRequest token domain) z = (listAnswer (z.queried domain), z) := by
  obtain ⟨htype, hname⟩ := get_type_name (readTail (urlencoding domain).toList)
  have hq : z.queried domain = z.records.filter fun r =>
      filterMatches "type".toList (query (api.listRequest token domain).url.toList) r.type &&
        filterMatches "name".toList (query (api.listRequest token domain).url.toList) r.name := by
    refine List.filter_congr fun r _ => ?_
    rw [Bool.eq_iff_iff, Bool.and_eq_true, decide_eq_true_eq, query_listRequest, filterMatches_iff htype,
      filterMatches_iff hname, utf8_inj, String.toList_inj]
    rfl
  have hmethod : (api.listRequest token domain).method = .get := rfl
  have hbody : (api.listRequest token domain).body = none := rfl
  rw [hq]
  simp only [serve, hmethod, hbody, if_pos (api.location_listRequest token domain)]

/-- A URL of a record names that record. -/
theorem find_recordUrl {r : CfDnsRecord} (hr : r ∈ z.records) :
    z.records.find? (fun s => location (api.recordUrl r.id) = api.recordUrl s.id) = some r := by
  rw [api.location_recordUrl (z.plain r hr)]
  cases hf : z.records.find? fun s => api.recordUrl r.id = api.recordUrl s.id with
  | none => exact absurd (decide_eq_true rfl) (List.find?_eq_none.1 hf r hr)
  | some s =>
    have hurl := (List.find?_eq_some_iff_append.1 hf).1
    rw [z.eq_of_id_eq hr (List.mem_of_find?_eq_some hf) (api.recordUrl_inj.1 (of_decide_eq_true hurl))]

/-- **The patch request** changes the content of the record with that id. -/
theorem serve_patch {id content : String} (hid : id ∈ z.records.map (·.id))
    (hvalid : (Ipv6Addr.fromStr content).isSome = true) :
    ∃ r z', api.serve (api.patchRequest token id content) z = (recordAnswer r, z') ∧
      z'.records = patched id content z.records := by
  obtain ⟨r, hr, rfl⟩ := List.mem_map.1 hid
  have hfind := api.find_recordUrl hr
  rw [← api.patchRequest_url token r.id content] at hfind
  have hmethod : (api.patchRequest token r.id content).method = .patch := rfl
  have hbody : (api.patchRequest token r.id content).body = some (.updateRecord content) := rfl
  have hall : ∀ s ∈ z.records, s.id = r.id → ValidContent s.type content := fun _ _ _ _ => hvalid
  refine ⟨r.withContent content, z.patch r.id content hall, ?_, rfl⟩
  simp only [serve, hmethod, hbody, hfind, dif_pos hall]

/-- **The create request** adds a record. -/
theorem serve_create (z : Zone) (domain : String) {content : String}
    (hvalid : (Ipv6Addr.fromStr content).isSome = true) : ∃ z', api.serve (api.createRequest token domain content) z =
        (recordAnswer ⟨api.next z.records, "AAAA", domain, content, 120⟩, z') ∧
      z'.records = z.records ++ [⟨api.next z.records, "AAAA", domain, content, 120⟩] := by
  have hmethod : (api.createRequest token domain content).method = .post := rfl
  have hbody : (api.createRequest token domain content).body =
    some (.createRecord "AAAA" domain content 120) := rfl
  have hurl : location (api.createRequest token domain content).url.toList = api.recordsUrl := by
    rw [createRequest_url, location_recordsUrl]
  refine ⟨z.create ⟨api.next z.records, "AAAA", domain, content, 120⟩ (api.plain _) (api.fresh _) fun _ => hvalid,
    ?_, rfl⟩
  simp only [serve, hmethod, hbody, if_pos hurl, dif_pos (show ValidContent "AAAA" content from fun _ => hvalid)]

end ZoneApi

/-- An API whose ids get longer and longer. -/
def sampleApi : ZoneApi where
  zoneId := "0a1b2c"
  next := fun rs => String.ofList (List.replicate ((rs.map fun r => r.id.toList).flatten.length + 1) 'r')
  plainZoneId := by decide
  fresh := fun rs h => by
    obtain ⟨r, hr, hid⟩ := List.mem_map.1 h
    have hle := (List.sublist_flatten_of_mem (List.mem_map_of_mem (f := fun r => r.id.toList) hr)).length_le
    rw [hid, String.toList_ofList, List.length_replicate] at hle
    omega
  plain := fun rs c hc => by
    rw [String.toList_ofList] at hc
    rw [List.eq_of_mem_replicate hc]
    rfl

/-- Two AAAA records of one domain. -/
def sampleZone : Zone where
  records := [⟨"r1", "AAAA", "nas.example.com", "2001:db8:9::1", 120⟩,
    ⟨"r2", "AAAA", "nas.example.com", "2001:db8:1::1", 120⟩]
  plain := by decide
  distinct := by decide
  valid := by decide

end DdnsIpv6

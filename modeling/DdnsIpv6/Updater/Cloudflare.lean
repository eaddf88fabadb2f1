import DdnsIpv6.Updater
import DdnsIpv6.Lib.Ipv6.Text

/-!
# `updater::cloudflare`

`CloudflareUpdater` over an HTTP client: `getRecord` lists the AAAA records of a domain and reads the first, `setRecord`
lists them and patches the first or creates one. Every request goes through `requestWithRetry`, which tries again after
the first two `429` answers.

What the JSON parser makes of a response body is part of the body (`BodyText`), once for each of the two types that
this module asks for.
-/

namespace DdnsIpv6

open Lib

/-! ## Requests and responses -/

def cfApiBase : String := "https://api.cloudflare.com/client/v4"

inductive Method where
  | get | patch | post
  deriving DecidableEq, Repr

/-- `CfCreateRecord`, `CfUpdateRecord` -/
inductive CfBody where
  | createRecord (type name content : String) (ttl : Nat)
  | updateRecord (content : String)
  deriving DecidableEq, Repr

structure CfDnsRecord where
  id : String
  type : String
  name : String
  content : String
  ttl : Nat
  deriving DecidableEq, Repr

structure CfApiError where
  code : Nat
  message : String
  deriving DecidableEq, Repr

structure CfApiResponse (α : Type) where
  success : Bool
  errors : List CfApiError
  result : Option α
  deriving DecidableEq, Repr

/-- A response body: its text, and what it parses to. -/
structure BodyText where
  raw : String
  asList : Except String (CfApiResponse (List CfDnsRecord))
  asRecord : Except String (CfApiResponse CfDnsRecord)

structure HttpRequest where
  method : Method
  url : String
  authorization : String
  contentType : String
  body : Option CfBody
  deriving DecidableEq, Repr

structure HttpResponse where
  status : Nat
  /-- The header `Retry-After`, if it is a text. -/
  retryAfter : Option String
  /-- Reading the body can fail. -/
  text : Except String BodyText

def HttpResponse.isSuccess (response : HttpResponse) : Bool := 200 ≤ response.status && response.status < 300

/-- An HTTP client in a world `σ`. -/
structure Http (σ : Type*) where
  send : HttpRequest → σ → Except String HttpResponse × σ
  sleep : Nat → σ → σ

/-! ## `CloudflareUpdater` -/

structure CloudflareUpdater where
  zoneId : String
  apiToken : String

/-- `str::parse::<u64>` -/
def parseU64 (s : String) : Option Nat :=
  let ds := match s.toList with
    | '+' :: ds => ds
    | ds => ds
  if ds = [] then none
  else if ds.all (fun c => (toDigit 10 c).isSome) && digitsValue 10 ds < 2 ^ 64 then some (digitsValue 10 ds)
  else none

/-- Percent-encoding of spaces, for domain names in query parameters. -/
def urlencoding (s : String) : String :=
  String.ofList (s.toList.flatMap fun c => if c = ' ' then "%20".toList else [c])

variable {σ α : Type}

namespace CloudflareUpdater

variable (self : CloudflareUpdater) (http : Http σ)

def httpRequest (method : Method) (path : String) (body : Option CfBody) : HttpRequest :=
  ⟨method, cfApiBase ++ path, "Bearer " ++ self.apiToken, "application/json", body⟩

def request (method : Method) (path : String) (body : Option CfBody) (w : σ) : Except Error HttpResponse × σ :=
  match http.send (self.httpRequest method path body) w with
  | (.ok response, w) => (.ok response, w)
  | (.error e, w) => (.error (.update (cfApiBase ++ path) (.client e)), w)

/-- What `request_with_retry` makes of a response that it does not retry. -/
def readResponse (parse : BodyText → Except String (CfApiResponse α)) (path : String) (response : HttpResponse) :
    Except Error (CfApiResponse α) :=
  match response.text with
  | .error e => .error (.update path (.client e))
  | .ok body =>
    if response.isSuccess then (parse body).mapError fun e => .update path (.client e)
    else .error (.update path (.http response.status body.raw))

/-- The loop, with a number of attempts left after this one. A `429` to the last one is an error like any other. -/
def requestLoop (parse : BodyText → Except String (CfApiResponse α)) (method : Method) (path : String)
    (body : Option CfBody) : (attempts : Nat) → σ → Except Error (CfApiResponse α) × σ
  | 0, w =>
    match self.request http method path body w with
    | (.error e, w) => (.error e, w)
    | (.ok response, w) => (readResponse parse path response, w)
  | attempts + 1, w =>
    match self.request http method path body w with
    | (.error e, w) => (.error e, w)
    | (.ok response, w) =>
      if response.status = 429 then
        requestLoop parse method path body attempts (http.sleep ((response.retryAfter.bind parseU64).getD 5) w)
      else (readResponse parse path response, w)

def requestWithRetry (parse : BodyText → Except String (CfApiResponse α)) (method : Method) (path : String)
    (body : Option CfBody) (w : σ) : Except Error (CfApiResponse α) × σ :=
  self.requestLoop http parse method path body 2 w

def recordsPath : String := "/zones/" ++ self.zoneId ++ "/dns_records"

def listPath (domain : String) : String := self.recordsPath ++ "?type=AAAA&name=" ++ urlencoding domain

def recordPath (id : String) : String := self.recordsPath ++ "/" ++ id

/-- The error of a response without `success`. -/
def apiErrors (domain label : String) (response : CfApiResponse α) : Error :=
  .update domain (.api label (response.errors.map (·.message)))

def getRecord (domain : String) (w : σ) : Except Error (Option Ipv6Addr) × σ :=
  match self.requestWithRetry http BodyText.asList .get (self.listPath domain) none w with
  | (.error e, w) => (.error e, w)
  | (.ok response, w) =>
    if response.success then
      match response.result with
      | some (record :: _) =>
        match Ipv6Addr.fromStr record.content with
        | some addr => (.ok (some addr), w)
        | none => (.error (.update domain (.invalidAaaa record.content)), w)
      | _ => (.ok none, w)
    else (.error (apiErrors domain "API errors" response), w)

/-- The end of `set_record`: the response to its write. -/
def finish (domain label : String) : Except Error (CfApiResponse CfDnsRecord) × σ → Except Error Unit × σ
  | (.error e, w) => (.error e, w)
  | (.ok response, w) =>
    if response.success then (.ok (), w) else (.error (apiErrors domain label response), w)

/-- Update an existing record. -/
def updateExisting (domain : String) (record : CfDnsRecord) (addrStr : String) (w : σ) : Except Error Unit × σ :=
  finish domain "API errors on update" (self.requestWithRetry http BodyText.asRecord .patch
    (self.recordPath record.id) (some (.updateRecord addrStr)) w)

/-- Create a new record. -/
def createNew (domain addrStr : String) (w : σ) : Except Error Unit × σ :=
  finish domain "API errors on create" (self.requestWithRetry http BodyText.asRecord .post
    self.recordsPath (some (.createRecord "AAAA" domain addrStr 120)) w)

def setRecord (domain : String) (addr : Ipv6Addr) (w : σ) : Except Error Unit × σ :=
  match self.requestWithRetry http BodyText.asList .get (self.listPath domain) none w with
  | (.error e, w) => (.error e, w)
  | (.ok response, w) =>
    if response.success then
      match response.result with
      | some (record :: _) =>
        if record.content = addr.toString then (.ok (), w)
        else self.updateExisting http domain record addr.toString w
      | _ => self.createNew http domain addr.toString w
    else (.error (apiErrors domain "API errors on list" response), w)

/-- `impl DnsUpdater for CloudflareUpdater` -/
def toDnsUpdater : DnsUpdater σ := ⟨self.setRecord http, self.getRecord http⟩

end CloudflareUpdater

/-! ## Responses that are read -/

open CloudflareUpdater

/-- A response that was read had a success status and a body. -/
theorem readResponse_ok {parse : BodyText → Except String (CfApiResponse α)} {path : String}
    {response : HttpResponse} {r : CfApiResponse α}
    (h : readResponse parse path response = .ok r) :
    ∃ body, response.text = .ok body ∧ response.isSuccess = true ∧ parse body = .ok r := by
  unfold readResponse at h
  split at h
  · cases h
  · rename_i body ht
    split at h
    · rename_i hs
      cases hp : parse body with
      | error e =>
        rw [hp] at h
        cases h
      | ok r' =>
        rw [hp] at h
        cases h
        exact ⟨body, ht, hs, hp⟩
    · cases h

/-- The end of `set_record` is `ok` just after a response with `success`, and leaves the world alone. -/
theorem finish_spec (domain label : String) (out : Except Error (CfApiResponse CfDnsRecord) × σ) :
    (finish domain label out).2 = out.2 ∧
    ((finish domain label out).1 = .ok () ↔ ∃ r, out.1 = .ok r ∧ r.success = true) := by
  rcases out with ⟨e | r, w⟩
  · exact ⟨rfl, fun h => (nomatch h), fun ⟨_, h, _⟩ => (nomatch h)⟩
  · simp only [finish]
    cases hs : r.success with
    | false =>
      refine ⟨rfl, fun h => (nomatch h), ?_⟩
      rintro ⟨_, ⟨⟩, hs'⟩
      rw [hs] at hs'
      cases hs'
    | true => exact ⟨rfl, fun _ => ⟨r, rfl, hs⟩, fun _ => rfl⟩

/-! ## The branches of `set_record` -/

section Listed

variable {self : CloudflareUpdater} {http : Http σ} {domain : String} {addr : Ipv6Addr} {w w' : σ}
  {response : CfApiResponse (List CfDnsRecord)}
  (h : self.requestWithRetry http BodyText.asList .get (self.listPath domain) none w = (.ok response, w'))
  (hs : response.success = true)

include h hs

/-- Without a listed record it creates one, -/
theorem setRecord_listed_nil (hr : response.result.getD [] = []) :
    self.setRecord http domain addr w = self.createNew http domain addr.toString w' := by
  simp only [setRecord, h, hs, if_true]
  cases hres : response.result with
  | none => rfl
  | some records =>
    rw [hres, Option.getD_some] at hr
    rw [hr]

/-- it updates the first one unless that is correct, -/
theorem setRecord_listed_cons {record : CfDnsRecord} {records : List CfDnsRecord}
    (hr : response.result = some (record :: records)) (hc : record.content ≠ addr.toString) :
    self.setRecord http domain addr w = self.updateExisting http domain record addr.toString w' := by
  simp only [setRecord, h, hs, if_true, hr, if_neg hc]

/-- and it leaves a correct one as it is. -/
theorem setRecord_listed_correct {record : CfDnsRecord} {records : List CfDnsRecord}
    (hr : response.result = some (record :: records)) (hc : record.content = addr.toString) :
    self.setRecord http domain addr w = (.ok (), w') := by
  simp only [setRecord, h, hs, if_true, hr, if_pos hc]

end Listed

/-- When the list request fails, so does the call, with an error that the client has no part in. -/
theorem setRecord_unlisted (self : CloudflareUpdater) (domain : String) (addr : Ipv6Addr)
    {answer : Except Error (CfApiResponse (List CfDnsRecord))}
    (hfail : ∀ response, answer = .ok response → response.success = false) :
    ∃ e, ∀ {τ : Type} (http : Http τ) (w w' : τ),
      self.requestWithRetry http BodyText.asList .get (self.listPath domain) none w = (answer, w') →
      self.setRecord http domain addr w = (.error e, w') := by
  cases answer with
  | error e =>
    refine ⟨e, fun http w w' h => ?_⟩
    simp only [setRecord, h]
  | ok response =>
    refine ⟨apiErrors domain "API errors on list" response, fun http w w' h => ?_⟩
    simp only [setRecord, h, hfail response rfl, Bool.false_eq_true, if_false]

/-- A list response has no record, or a first one. -/
theorem records_nil_or_cons (response : CfApiResponse (List CfDnsRecord)) : response.result.getD [] = [] ∨
    ∃ record records, response.result = some (record :: records) := by
  cases hres : response.result with
  | none => exact Or.inl rfl
  | some records =>
    cases records with
    | nil => exact Or.inl rfl
    | cons record records => exact Or.inr ⟨record, records, rfl⟩

end DdnsIpv6

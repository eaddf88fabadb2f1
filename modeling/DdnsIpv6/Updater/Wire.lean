import DdnsIpv6.Lib.Logged
import DdnsIpv6.Updater.Discipline
import DdnsIpv6.Updater.Remote

/-!
# What a call of an updater asks of its client, and when it waits

The clients of the updaters with a log of all that they do. A call of `CloudflareUpdater` sends a list request, and
`set_record` perhaps one write (`CfCallLog`); each of them is tried up to three times, and after a `429` to one of the
first two attempts the call waits for the seconds that the server asks for, at no other time (`Attempts`). A call of
`Rfc2136Updater` calls the DNS client once to list the records, and `set_record` perhaps once more to set them
(`DnsCallLog`); which messages the client sends for its calls is up to the client.
-/

namespace DdnsIpv6

open Lib Lib.WriteThrough CloudflareUpdater

variable {σ α : Type}

/-! ## `CloudflareUpdater` -/

/-- What an HTTP client does. -/
inductive HttpEvent where
  | send (request : HttpRequest) (answer : Except String HttpResponse)
  | sleep (secs : Nat)

/-- The client with a log. -/
def Http.logged (http : Http σ) : Http (Logged σ HttpEvent) where
  send := fun req w =>
    let (answer, v) := http.send req w.world
    (answer, ⟨v, w.log ++ [.send req answer]⟩)
  sleep := fun n w => ⟨http.sleep n w.world, w.log ++ [.sleep n]⟩

/-- The attempts of one request, at most `n`, and the answer to the last: an answer that is no `429` is the last one,
and after a `429` with attempts left there is a sleep of its `Retry-After`, or of five seconds, and the next attempt. -/
inductive Attempts (req : HttpRequest) : Nat → List HttpEvent → Except String HttpResponse → Prop
  | answered {n : Nat} {answer : Except String HttpResponse}
      (h : ∀ response, answer = .ok response → response.status ≠ 429) :
      Attempts req (n + 1) [.send req answer] answer
  | givenUp (answer : Except String HttpResponse) : Attempts req 1 [.send req answer] answer
  | retried {n : Nat} {response : HttpResponse} {es : List HttpEvent} {answer : Except String HttpResponse}
      (hl : response.status = 429) (h : Attempts req (n + 1) es answer) :
      Attempts req (n + 2)
        (.send req (.ok response) :: .sleep ((response.retryAfter.bind parseU64).getD 5) :: es) answer

/-- What the client logs of a step. -/
def HttpStep.events : HttpStep σ → List HttpEvent
  | .sent x => [.send x.request x.answer]
  | .slept secs => [.sleep secs]

theorem Http.logged_noted (http : Http σ) : http.NotedBy http.logged Logged.mk HttpStep.events :=
  ⟨fun _ _ _ => rfl, fun _ _ _ => rfl⟩

theorem Exchange.limited_iff {x : Exchange σ} :
    x.limited = true ↔ ∃ response, x.answer = .ok response ∧ response.status = 429 := by
  obtain ⟨req, answer, after⟩ := x
  cases answer <;> simp [Exchange.limited]

theorem Retries.attempts {http : Http σ} {req : HttpRequest} {n : Nat} {w : σ} {steps : List (HttpStep σ)}
    {last : Exchange σ} (h : Retries http req n w steps last) :
    Attempts req (n + 1) (steps.flatMap HttpStep.events) last.answer := by
  induction h with
  | @last n w h =>
    cases hl : (http.exchange req w).limited with
    | false =>
      refine .answered fun response ha hs => ?_
      rw [Exchange.limited_iff.2 ⟨response, ha, hs⟩] at hl
      cases hl
    | true =>
      obtain rfl := h.resolve_right (by simp [hl])
      exact .givenUp _
  | @retry n w steps last hl h ih =>
    obtain ⟨response, ha, hs⟩ := Exchange.limited_iff.1 hl
    simp only [List.flatMap_cons, HttpStep.events, List.singleton_append, ha]
    exact .retried hs ih

section Requests

variable (self : CloudflareUpdater) (http : Http σ) (parse : BodyText → Except String (CfApiResponse α))
  (method : Method) (path : String) (body : Option CfBody)

/-- **The log of a request with its retries.** -/
theorem requestLoop_logged (attempts : Nat) (w : σ) : ∃ es answer,
    Attempts (self.httpRequest method path body) (attempts + 1) es answer ∧
    (self.requestLoop http parse method path body attempts w).1 = readAnswer parse path answer ∧
    ∀ log, self.requestLoop http.logged parse method path body attempts ⟨w, log⟩ =
      ((self.requestLoop http parse method path body attempts w).1,
        ⟨(self.requestLoop http parse method path body attempts w).2, log ++ es⟩) := by
  obtain ⟨steps, last, hsteps, hout, hlog⟩ := requestLoop_steps self http parse method path body attempts w
  rw [hout]
  exact ⟨_, _, hsteps.attempts, rfl, hlog http.logged_noted⟩

end Requests

/-- What a call of `CloudflareUpdater` logs: the attempts of its list request, and those of the write that the listed
records call for. -/
inductive CfCallLog (self : CloudflareUpdater) : Call String Ipv6Addr → List HttpEvent → Prop
  | query {domain : String} {es : List HttpEvent} {answer : Except String HttpResponse}
      (h : Attempts (self.listRequest domain) 3 es answer) : CfCallLog self (.read domain) es
  /-- The list was not read, or its first record is correct. -/
  | list {domain : String} {addr : Ipv6Addr} {es : List HttpEvent} {answer : Except String HttpResponse}
      (h : Attempts (self.listRequest domain) 3 es answer)
      (hr : ∀ response, readAnswer BodyText.asList (self.listPath domain) answer = .ok response →
        response.success = true → ∃ record records, response.result = some (record :: records) ∧
          record.content = addr.toString) : CfCallLog self (.write domain addr) es
  | patch {domain : String} {addr : Ipv6Addr} {es fs : List HttpEvent} {answer answer' : Except String HttpResponse}
      {response : CfApiResponse (List CfDnsRecord)} {record : CfDnsRecord} {records : List CfDnsRecord}
      (h : Attempts (self.listRequest domain) 3 es answer)
      (hr : readAnswer BodyText.asList (self.listPath domain) answer = .ok response) (hs : response.success = true)
      (hres : response.result = some (record :: records)) (hc : record.content ≠ addr.toString)
      (hw : Attempts (self.patchRequest record.id addr.toString) 3 fs answer') :
      CfCallLog self (.write domain addr) (es ++ fs)
  | create {domain : String} {addr : Ipv6Addr} {es fs : List HttpEvent} {answer answer' : Except String HttpResponse}
      {response : CfApiResponse (List CfDnsRecord)} (h : Attempts (self.listRequest domain) 3 es answer)
      (hr : readAnswer BodyText.asList (self.listPath domain) answer = .ok response) (hs : response.success = true)
      (hres : response.result.getD [] = [])
      (hw : Attempts (self.createRequest domain addr.toString) 3 fs answer') :
      CfCallLog self (.write domain addr) (es ++ fs)

section Calls

variable (self : CloudflareUpdater) (http : Http σ)

/-- One request of a call. -/
theorem requestWithRetry_logged (parse : BodyText → Except String (CfApiResponse α)) (method : Method) (path : String)
    (body : Option CfBody) (w : σ) : ∃ es answer, Attempts (self.httpRequest method path body) 3 es answer ∧
    (self.requestWithRetry http parse method path body w).1 = readAnswer parse path answer ∧
    ∀ log, self.requestWithRetry http.logged parse method path body ⟨w, log⟩ =
      ((self.requestWithRetry http parse method path body w).1,
        ⟨(self.requestWithRetry http parse method path body w).2, log ++ es⟩) :=
  requestLoop_logged self http parse method path body 2 w

/-- A write of `set_record`. -/
theorem finish_logged (domain label : String) (method : Method) (path : String) (body : Option CfBody) (w : σ) :
    ∃ es answer, Attempts (self.httpRequest method path body) 3 es answer ∧
    ∀ log, finish domain label (self.requestWithRetry http.logged BodyText.asRecord method path body ⟨w, log⟩) =
      ((finish domain label (self.requestWithRetry http BodyText.asRecord method path body w)).1,
        ⟨(finish domain label (self.requestWithRetry http BodyText.asRecord method path body w)).2, log ++ es⟩) := by
  obtain ⟨es, answer, hes, -, hlog⟩ := requestWithRetry_logged self http BodyText.asRecord method path body w
  refine ⟨es, answer, hes, fun log => ?_⟩
  rw [hlog]
  rcases self.requestWithRetry http BodyText.asRecord method path body w with ⟨e | r, w'⟩
  · rfl
  · simp only [finish]
    split <;> rfl

theorem cloudflare_getRecord_logged (domain : String) (w : σ) : ∃ es, CfCallLog self (.read domain) es ∧
    ∀ log, self.getRecord http.logged domain ⟨w, log⟩ =
      ((self.getRecord http domain w).1, ⟨(self.getRecord http domain w).2, log ++ es⟩) := by
  obtain ⟨es, answer, hes, -, hlog⟩ :=
    requestWithRetry_logged self http BodyText.asList .get (self.listPath domain) none w
  refine ⟨es, .query hes, fun log => ?_⟩
  simp only [getRecord, hlog]
  rcases self.requestWithRetry http BodyText.asList .get (self.listPath domain) none w with ⟨e | response, w'⟩
  · rfl
  · simp only
    split
    · split
      · split <;> rfl
      · rfl
    · rfl

theorem cloudflare_setRecord_logged (domain : String) (addr : Ipv6Addr) (w : σ) :
    ∃ es, CfCallLog self (.write domain addr) es ∧ ∀ log, self.setRecord http.logged domain addr ⟨w, log⟩ =
      ((self.setRecord http domain addr w).1, ⟨(self.setRecord http domain addr w).2, log ++ es⟩) := by
  obtain ⟨es, answer, hes, hread, hlog⟩ :=
    requestWithRetry_logged self http BodyText.asList .get (self.listPath domain) none w
  rcases hout : self.requestWithRetry http BodyText.asList .get (self.listPath domain) none w with ⟨result, w'⟩
  simp only [hout] at hread hlog
  by_cases hfail : ∀ response, result = .ok response → response.success = false
  · -- there is no list to go by
    obtain ⟨e, he⟩ := setRecord_unlisted self domain addr hfail
    refine ⟨es, .list hes fun response hr hs => ?_, fun log => ?_⟩
    · cases (hfail response (hread.trans hr)).symm.trans hs
    · rw [he http.logged ⟨w, log⟩ _ (hlog log), he http w w' hout]
  · obtain ⟨response, rfl, hs⟩ : ∃ response, result = .ok response ∧ response.success = true := by
      simpa using hfail
    obtain hnil | ⟨record, records, hres⟩ := records_nil_or_cons response
    · -- no record is listed, so one is created
      obtain ⟨fs, answer', hfs, hwlog⟩ := finish_logged self http domain "API errors on create" .post self.recordsPath
        (some (.createRecord "AAAA" domain addr.toString 120)) w'
      refine ⟨es ++ fs, .create hes hread.symm hs hnil hfs, fun log => ?_⟩
      rw [setRecord_listed_nil (hlog log) hs hnil, setRecord_listed_nil hout hs hnil, ← List.append_assoc]
      exact hwlog _
    · by_cases hc : record.content = addr.toString
      · -- it is correct
        refine ⟨es, .list hes fun response' hr _ => ?_, fun log => ?_⟩
        · cases hread.trans hr
          exact ⟨record, records, hres, hc⟩
        · rw [setRecord_listed_correct (hlog log) hs hres hc, setRecord_listed_correct hout hs hres hc]
      · -- the first listed record is patched
        obtain ⟨fs, answer', hfs, hwlog⟩ := finish_logged self http domain "API errors on update" .patch
          (self.recordPath record.id) (some (.updateRecord addr.toString)) w'
        refine ⟨es ++ fs, .patch hes hread.symm hs hres hc hfs, fun log => ?_⟩
        rw [setRecord_listed_cons (hlog log) hs hres hc, setRecord_listed_cons hout hs hres hc, ← List.append_assoc]
        exact hwlog _

/-- **The calls of `CloudflareUpdater`, with their log.** -/
theorem cloudflare_loggedBy : (self.toDnsUpdater http).client.LoggedBy (self.toDnsUpdater http.logged).client
    (CfCallLog self) :=
  ⟨cloudflare_getRecord_logged self http, cloudflare_setRecord_logged self http⟩

end Calls

/-! ## `Rfc2136Updater` -/

/-- The calls of a DNS client, with their answers. -/
inductive DnsEvent where
  | listRrset (name : String) (type : DnsRecordType) (origin : String) (answer : Except String (List DnsRecord))
  | setRrset (name : String) (type : DnsRecordType) (ttl : Nat) (records : List DnsRecord) (origin : String)
      (answer : Except String Unit)

/-- The client with a log of its calls. -/
def DnsUpdateClient.logged (client : DnsUpdateClient σ) : DnsUpdateClient (Logged σ DnsEvent) where
  listRrset := fun name type origin w =>
    let (answer, v) := client.listRrset name type origin w.world
    (answer, ⟨v, w.log ++ [.listRrset name type origin answer]⟩)
  setRrset := fun name type ttl records origin w =>
    let (answer, v) := client.setRrset name type ttl records origin w.world
    (answer, ⟨v, w.log ++ [.setRrset name type ttl records origin answer]⟩)

/-- The updater whose client has a log. -/
def Rfc2136Updater.logged (self : Rfc2136Updater σ) : Rfc2136Updater (Logged σ DnsEvent) := ⟨self.updater.logged⟩

/-- The call that lists the records of a domain. -/
def DnsEvent.query (domain : String) (answer : Except String (List DnsRecord)) : DnsEvent :=
  .listRrset domain .aaaa (Rfc2136Updater.zoneFromDomain domain) answer

/-- The call that sets the record of a domain. -/
def DnsEvent.update (domain : String) (addr : Ipv6Addr) (answer : Except String Unit) : DnsEvent :=
  .setRrset domain .aaaa 120 [.aaaa addr] (Rfc2136Updater.zoneFromDomain domain) answer

/-- The first AAAA record of the answer has the address. -/
def FirstAddress (answer : Except String (List DnsRecord)) (addr : Ipv6Addr) : Prop :=
  ∃ records, answer = .ok records ∧ records.findSome? DnsRecord.asAaaa = some addr

/-- What a call of `Rfc2136Updater` calls the client for: the list, and the record unless the first one is correct. -/
inductive DnsCallLog : Call String Ipv6Addr → List DnsEvent → Prop
  | query (domain : String) (answer : Except String (List DnsRecord)) :
      DnsCallLog (.read domain) [.query domain answer]
  | correct {domain : String} {addr : Ipv6Addr} {answer : Except String (List DnsRecord)}
      (hr : FirstAddress answer addr) : DnsCallLog (.write domain addr) [.query domain answer]
  | update {domain : String} {addr : Ipv6Addr} {answer : Except String (List DnsRecord)}
      (hr : ¬FirstAddress answer addr) (answer' : Except String Unit) :
      DnsCallLog (.write domain addr) [.query domain answer, .update domain addr answer']

section Rfc2136

variable (self : Rfc2136Updater σ)

theorem rfc2136_getRecord_logged (domain : String) (w : σ) : ∃ answer,
    (∀ addr, FirstAddress answer addr ↔ (self.getRecord domain w).1 = .ok (some addr)) ∧
    ∀ log, self.logged.getRecord domain ⟨w, log⟩ =
      ((self.getRecord domain w).1, ⟨(self.getRecord domain w).2, log ++ [.query domain answer]⟩) := by
  refine ⟨(self.updater.listRrset domain .aaaa (Rfc2136Updater.zoneFromDomain domain) w).1, fun addr => ?_,
    fun log => ?_⟩ <;>
    rcases hl : self.updater.listRrset domain .aaaa (Rfc2136Updater.zoneFromDomain domain) w with ⟨e | records, w'⟩ <;>
    simp [FirstAddress, Rfc2136Updater.getRecord, Rfc2136Updater.logged, DnsUpdateClient.logged, DnsEvent.query, hl]

theorem rfc2136_replace_logged (domain : String) (addr : Ipv6Addr) (w : σ) : ∃ answer,
    ∀ log, self.logged.replace domain addr ⟨w, log⟩ =
      ((self.replace domain addr w).1, ⟨(self.replace domain addr w).2, log ++ [.update domain addr answer]⟩) := by
  refine ⟨(self.updater.setRrset domain .aaaa 120 [.aaaa addr] (Rfc2136Updater.zoneFromDomain domain) w).1,
    fun log => ?_⟩
  rcases hs : self.updater.setRrset domain .aaaa 120 [.aaaa addr] (Rfc2136Updater.zoneFromDomain domain) w with
    ⟨e | _, w'⟩ <;>
    simp only [Rfc2136Updater.replace, Rfc2136Updater.logged, DnsUpdateClient.logged, DnsEvent.update, hs]

theorem rfc2136_setRecord_logged (domain : String) (addr : Ipv6Addr) (w : σ) :
    ∃ es, DnsCallLog (.write domain addr) es ∧ ∀ log, self.logged.setRecord domain addr ⟨w, log⟩ =
      ((self.setRecord domain addr w).1, ⟨(self.setRecord domain addr w).2, log ++ es⟩) := by
  obtain ⟨answer, hfirst, hget⟩ := rfc2136_getRecord_logged self domain w
  rcases hout : self.getRecord domain w with ⟨result, w'⟩
  simp only [hout] at hfirst hget
  obtain ⟨answer', hreplace⟩ := rfc2136_replace_logged self domain addr w'
  by_cases hc : result = .ok (some addr)
  · subst hc
    refine ⟨_, .correct ((hfirst addr).2 rfl), fun log => ?_⟩
    simp only [Rfc2136Updater.setRecord, hget, hout, if_true]
  · refine ⟨_, .update (fun h => hc ((hfirst addr).1 h)) answer', fun log => ?_⟩
    have happend : log ++ [.query domain answer, .update domain addr answer'] =
        log ++ [.query domain answer] ++ [.update domain addr answer'] := List.append_cons _ _ _
    rw [happend]
    rcases result with e | _ | current
    · simp only [Rfc2136Updater.setRecord, hget, hout, hreplace]
    · simp only [Rfc2136Updater.setRecord, hget, hout, hreplace]
    · have hne : current ≠ addr := fun h => hc (by rw [h])
      simp only [Rfc2136Updater.setRecord, hget, hout, hreplace, if_neg hne]

/-- **The calls of `Rfc2136Updater`, with their log.** -/
theorem rfc2136_loggedBy : self.toDnsUpdater.client.LoggedBy self.logged.toDnsUpdater.client DnsCallLog where
  read := fun domain w => by
    obtain ⟨answer, -, hget⟩ := rfc2136_getRecord_logged self domain w
    exact ⟨_, .query domain answer, hget⟩
  write := rfc2136_setRecord_logged self

end Rfc2136

end DdnsIpv6

import DdnsIpv6.Updater.Cloudflare

/-!
# What `CloudflareUpdater::set_record` sends

The attempts of one request are told once (`Retries`, `requestLoop_steps`), for every client that notes what another one
does (`Http.NotedBy`). `Http.recording` is such a client: it writes down every request, its answer and the world after
it, and changes nothing else. The record of one request with its retries is a list of `Tries`; that of `set_record`
consists of the tries of the list request, followed by those of one write at most, as its result says
(`setRecord_discipline`).
-/

namespace DdnsIpv6

open Lib CloudflareUpdater

/-! ## Recording -/

/-- A request, its answer, and the world after it. -/
structure Exchange (σ : Type*) where
  request : HttpRequest
  answer : Except String HttpResponse
  after : σ

/-- A world and the exchanges so far. -/
structure Recorded (σ : Type*) where
  world : σ
  log : List (Exchange σ)

variable {σ α : Type}

/-- The answer is a `429`. -/
def Exchange.limited (x : Exchange σ) : Bool :=
  match x.answer with
  | .ok response => response.status == 429
  | .error _ => false

/-- The exchange that sends `req` in the world `w`. -/
def Http.exchange (http : Http σ) (req : HttpRequest) (w : σ) : Exchange σ :=
  ⟨req, (http.send req w).1, (http.send req w).2⟩

/-- The client that records what it sends. -/
def Http.recording (http : Http σ) : Http (Recorded σ) where
  send := fun req w => ((http.send req w.world).1, ⟨(http.send req w.world).2, w.log ++ [http.exchange req w.world]⟩)
  sleep := fun n w => ⟨http.sleep n w.world, w.log⟩

/-! ## One request with its retries -/

/-- What `request_with_retry` makes of the last answer. -/
def CloudflareUpdater.readAnswer (parse : BodyText → Except String (CfApiResponse α)) (path : String) :
    Except String HttpResponse → Except Error (CfApiResponse α)
  | .error e => .error (.update (cfApiBase ++ path) (.client e))
  | .ok response => readResponse parse path response

/-- The seconds to sleep after a `429`. -/
def CloudflareUpdater.retryDelay : Except String HttpResponse → Nat
  | .error _ => 5
  | .ok response => (response.retryAfter.bind parseU64).getD 5

/-- A step of a request with its retries. -/
inductive HttpStep (σ : Type) where
  | sent (x : Exchange σ)
  | slept (secs : Nat)

/-- The steps of one request from the world `w` on, with at most `n` retries, and the last exchange: an answer that is
no `429` is the last one, and after a `429` with retries left there is a sleep, and the next attempt. -/
inductive Retries (http : Http σ) (req : HttpRequest) : Nat → σ → List (HttpStep σ) → Exchange σ → Prop
  | last {n : Nat} (w : σ) (h : n = 0 ∨ (http.exchange req w).limited = false) :
      Retries http req n w [.sent (http.exchange req w)] (http.exchange req w)
  | retry {n : Nat} {w : σ} {steps : List (HttpStep σ)} {last : Exchange σ}
      (hl : (http.exchange req w).limited = true)
      (h : Retries http req n (http.sleep (retryDelay (http.exchange req w).answer) (http.exchange req w).after) steps
        last) :
      Retries http req (n + 1) w
        (.sent (http.exchange req w) :: .slept (retryDelay (http.exchange req w).answer) :: steps) last

/-- The exchanges of one request from the world `w` on, at most `n`: a `429` is followed by another one after some
sleep, any other answer is the last. -/
inductive Performs (http : Http σ) (req : HttpRequest) : Nat → σ → List (Exchange σ) → Exchange σ → Prop
  | last (n : Nat) (w : σ) : Performs http req (n + 1) w [http.exchange req w] (http.exchange req w)
  | retry {n : Nat} {w : σ} {xs : List (Exchange σ)} {last : Exchange σ} (delay : Nat)
      (hl : (http.exchange req w).limited = true)
      (h : Performs http req n (http.sleep delay (http.exchange req w).after) xs last) :
      Performs http req (n + 1) w (http.exchange req w :: xs) last

/-- What the recording client writes down of a step. -/
def HttpStep.exchanges : HttpStep σ → List (Exchange σ)
  | .sent x => [x]
  | .slept _ => []

theorem Retries.performs {http : Http σ} {req : HttpRequest} {n : Nat} {w : σ} {steps : List (HttpStep σ)}
    {last : Exchange σ} (h : Retries http req n w steps last) :
    Performs http req (n + 1) w (steps.flatMap HttpStep.exchanges) last := by
  induction h with
  | last w _ => exact .last _ w
  | retry hl _ ih => exact .retry _ hl ih

/-- The client `http'` is `http` with a log, where `note` says what is logged of a step. -/
structure Http.NotedBy {τ η : Type} (http : Http σ) (http' : Http τ) (mk : σ → List η → τ)
    (note : HttpStep σ → List η) : Prop where
  send : ∀ req w log, http'.send req (mk w log) =
    ((http.send req w).1, mk (http.send req w).2 (log ++ note (.sent (http.exchange req w))))
  sleep : ∀ secs w log, http'.sleep secs (mk w log) = mk (http.sleep secs w) (log ++ note (.slept secs))

theorem Http.recording_noted (http : Http σ) : http.NotedBy http.recording Recorded.mk HttpStep.exchanges where
  send := fun _ _ _ => rfl
  sleep := fun secs w log => congrArg (Recorded.mk (http.sleep secs w)) (List.append_nil log).symm

section Noted

variable {τ η : Type} {http : Http σ} {http' : Http τ} {mk : σ → List η → τ} {note : HttpStep σ → List η}

theorem Http.NotedBy.exchange_answer (hn : http.NotedBy http' mk note) (req : HttpRequest) (w : σ) (log : List η) :
    (http'.exchange req (mk w log)).answer = (http.exchange req w).answer := congrArg Prod.fst (hn.send req w log)

theorem Http.NotedBy.exchange_after (hn : http.NotedBy http' mk note) (req : HttpRequest) (w : σ) (log : List η) :
    (http'.exchange req (mk w log)).after =
      mk (http.exchange req w).after (log ++ note (.sent (http.exchange req w))) :=
  congrArg Prod.snd (hn.send req w log)

theorem Http.NotedBy.exchange_limited (hn : http.NotedBy http' mk note) (req : HttpRequest) (w : σ) (log : List η) :
    (http'.exchange req (mk w log)).limited = (http.exchange req w).limited := by
  simp only [Exchange.limited, hn.exchange_answer]

end Noted

section Requests

variable (self : CloudflareUpdater) (http : Http σ) (parse : BodyText → Except String (CfApiResponse α))
  (method : Method) (path : String) (body : Option CfBody)

/-- The last attempt. -/
theorem requestLoop_zero (w : σ) : self.requestLoop http parse method path body 0 w =
    (readAnswer parse path (http.exchange (self.httpRequest method path body) w).answer,
      (http.exchange (self.httpRequest method path body) w).after) := by
  rcases hs : http.send (self.httpRequest method path body) w with ⟨e | response, w'⟩ <;>
    simp only [requestLoop, request, hs, readAnswer, Http.exchange]

/-- An attempt with others left. -/
theorem requestLoop_succ (attempts : Nat) (w : σ) : self.requestLoop http parse method path body (attempts + 1) w =
    if (http.exchange (self.httpRequest method path body) w).limited then
      self.requestLoop http parse method path body attempts
        (http.sleep (retryDelay (http.exchange (self.httpRequest method path body) w).answer)
          (http.exchange (self.httpRequest method path body) w).after)
    else (readAnswer parse path (http.exchange (self.httpRequest method path body) w).answer,
      (http.exchange (self.httpRequest method path body) w).after) := by
  rcases hs : http.send (self.httpRequest method path body) w with ⟨e | response, w'⟩
  · simp only [requestLoop, request, hs, Http.exchange, Exchange.limited, readAnswer, Bool.false_eq_true, if_false]
  · simp only [requestLoop, request, hs, Http.exchange, Exchange.limited, readAnswer, retryDelay, beq_iff_eq]

/-- **A request with its retries**, step by step: its result is read from the last answer, and with a log it is
otherwise what it is without one. -/
theorem requestLoop_steps (attempts : Nat) (w : σ) : ∃ steps last,
    Retries http (self.httpRequest method path body) attempts w steps last ∧
    self.requestLoop http parse method path body attempts w = (readAnswer parse path last.answer, last.after) ∧
    ∀ {τ η : Type} {http' : Http τ} {mk : σ → List η → τ} {note : HttpStep σ → List η},
      http.NotedBy http' mk note → ∀ log, self.requestLoop http' parse method path body attempts (mk w log) =
        (readAnswer parse path last.answer, mk last.after (log ++ steps.flatMap note)) := by
  obtain ⟨req, hreq⟩ : ∃ req, req = self.httpRequest method path body := ⟨_, rfl⟩
  induction attempts generalizing w with
  | zero =>
    rw [← hreq]
    refine ⟨_, _, .last w (Or.inl rfl), ?_, fun hn log => ?_⟩
    · rw [requestLoop_zero, hreq]
    · rw [requestLoop_zero, ← hreq, hn.exchange_answer, hn.exchange_after, List.flatMap_singleton]
  | succ attempts ih =>
    rw [← hreq] at ih ⊢
    cases hl : (http.exchange req w).limited with
    | false =>
      refine ⟨_, _, .last w (Or.inr hl), ?_, fun hn log => ?_⟩
      · rw [requestLoop_succ, ← hreq, hl, if_neg Bool.false_ne_true]
      · rw [requestLoop_succ, ← hreq, hn.exchange_limited, hl, if_neg Bool.false_ne_true, hn.exchange_answer,
          hn.exchange_after, List.flatMap_singleton]
    | true =>
      obtain ⟨steps, last, hsteps, hout, hlog⟩ :=
        ih (http.sleep (retryDelay (http.exchange req w).answer) (http.exchange req w).after)
      refine ⟨_, last, .retry hl hsteps, ?_, fun hn log => ?_⟩
      · rw [requestLoop_succ, ← hreq, hl, if_pos rfl, hout]
      · rw [requestLoop_succ, ← hreq, hn.exchange_limited, hl, if_pos rfl, hn.exchange_answer, hn.exchange_after,
          hn.sleep, hlog hn, List.flatMap_cons, List.flatMap_cons, List.append_assoc, List.append_assoc]

/-- **The record of a request with its retries.** -/
theorem requestLoop_recording (attempts : Nat) (w : σ) : ∃ xs last,
    Performs http (self.httpRequest method path body) (attempts + 1) w xs last ∧
    self.requestLoop http parse method path body attempts w = (readAnswer parse path last.answer, last.after) ∧
    ∀ log, self.requestLoop http.recording parse method path body attempts ⟨w, log⟩ =
      (readAnswer parse path last.answer, ⟨last.after, log ++ xs⟩) := by
  obtain ⟨steps, last, hsteps, hout, hlog⟩ := requestLoop_steps self http parse method path body attempts w
  exact ⟨_, last, hsteps.performs, hout, hlog http.recording_noted⟩

end Requests

/-- The exchanges of one request: at most `n`, all but the last answered with a `429`. -/
structure Tries (req : HttpRequest) (n : Nat) (xs : List (Exchange σ)) : Prop where
  length : xs.length ≤ n
  request : ∀ x ∈ xs, x.request = req
  limited : ∀ x ∈ xs.dropLast, x.limited = true

section Performs

variable {http : Http σ} {req : HttpRequest} {n : Nat} {w : σ} {xs : List (Exchange σ)} {last : Exchange σ}

theorem Performs.getLast? (h : Performs http req n w xs last) : xs.getLast? = some last := by
  induction h with
  | last => rfl
  | retry _ _ h ih => rw [List.getLast?_cons, ih, Option.getD_some]

theorem Performs.ne_nil (h : Performs http req n w xs last) : xs ≠ [] := by
  rintro rfl
  cases h.getLast?

theorem Performs.tries (h : Performs http req n w xs last) : Tries req n xs := by
  induction h with
  | last n w => exact ⟨Nat.le_add_left 1 n, by simp [Http.exchange], by simp⟩
  | retry _ hl h ih =>
    refine ⟨Nat.succ_le_succ ih.length, List.forall_mem_cons.2 ⟨rfl, ih.request⟩, ?_⟩
    rw [List.dropLast_cons_of_ne_nil h.ne_nil]
    exact List.forall_mem_cons.2 ⟨hl, ih.limited⟩

end Performs

/-! ## `set_record` -/

/-- The last exchange was answered with a success status and a body that parses to `r`, with `success`. -/
def Succeeded (parse : BodyText → Except String (CfApiResponse α)) (xs : List (Exchange σ)) (r : CfApiResponse α) :
    Prop :=
  ∃ x response body, xs.getLast? = some x ∧ x.answer = .ok response ∧ response.isSuccess = true ∧
    response.text = .ok body ∧ parse body = .ok r ∧ r.success = true

/-- A request is sent again only directly after a `429` to the same request. -/
def RepeatsAfterLimit (log : List (Exchange σ)) : Prop :=
  ∀ before x after, log = before ++ x :: after → (∃ y ∈ before, y.request = x.request) →
    ∃ y, before.getLast? = some y ∧ y.request = x.request ∧ y.limited = true

namespace CloudflareUpdater

variable (self : CloudflareUpdater)

def listRequest (domain : String) : HttpRequest := self.httpRequest .get (self.listPath domain) none

def patchRequest (id addrStr : String) : HttpRequest :=
  self.httpRequest .patch (self.recordPath id) (some (.updateRecord addrStr))

def createRequest (domain addrStr : String) : HttpRequest :=
  self.httpRequest .post self.recordsPath (some (.createRecord "AAAA" domain addrStr 120))

end CloudflareUpdater

/-- The writes of a call, after the response `r` to its list request: patches of the first listed record, or
creations. -/
inductive WriteTries (self : CloudflareUpdater) (domain addrStr : String) (r : CfApiResponse (List CfDnsRecord)) :
    List (Exchange σ) → Prop
  | patch (record : CfDnsRecord) (records : List CfDnsRecord) (hr : r.result = some (record :: records))
      (hc : record.content ≠ addrStr) {writes : List (Exchange σ)} (hne : writes ≠ [])
      (hw : Tries (self.patchRequest record.id addrStr) 3 writes) : WriteTries self domain addrStr r writes
  | create (hr : r.result.getD [] = []) {writes : List (Exchange σ)} (hne : writes ≠ [])
      (hw : Tries (self.createRequest domain addrStr) 3 writes) : WriteTries self domain addrStr r writes

/-- The exchanges of a call from the world `w` on: those of the list request, and those of the write that its response
calls for. -/
inductive SetExchanges (self : CloudflareUpdater) (http : Http σ) (domain addrStr : String) (w : σ) :
    List (Exchange σ) → List (Exchange σ) → Prop
  | list {lists : List (Exchange σ)} {last : Exchange σ} (hl : Performs http (self.listRequest domain) 3 w lists last) :
      SetExchanges self http domain addrStr w lists []
  | patch {lists writes : List (Exchange σ)} {last last' : Exchange σ} {r : CfApiResponse (List CfDnsRecord)}
      {record : CfDnsRecord} {records : List CfDnsRecord} (hl : Performs http (self.listRequest domain) 3 w lists last)
      (hs : Succeeded BodyText.asList lists r) (hr : r.result = some (record :: records))
      (hc : record.content ≠ addrStr)
      (hw : Performs http (self.patchRequest record.id addrStr) 3 last.after writes last') :
      SetExchanges self http domain addrStr w lists writes
  | create {lists writes : List (Exchange σ)} {last last' : Exchange σ} {r : CfApiResponse (List CfDnsRecord)}
      (hl : Performs http (self.listRequest domain) 3 w lists last) (hs : Succeeded BodyText.asList lists r)
      (hr : r.result.getD [] = []) (hw : Performs http (self.createRequest domain addrStr) 3 last.after writes last') :
      SetExchanges self http domain addrStr w lists writes

/-- `set_record` succeeded: the first listed record was correct, or its write succeeded. -/
def SetSucceeded (addrStr : String) (lists writes : List (Exchange σ)) : Prop :=
  (∃ r record records, Succeeded BodyText.asList lists r ∧ r.result = some (record :: records) ∧
    record.content = addrStr) ∨ ∃ r, Succeeded BodyText.asRecord writes r

/-- What a call of `set_record` sent, and its result. -/
structure SetDiscipline (self : CloudflareUpdater) (domain addrStr : String) (result : Except Error Unit)
    (lists writes : List (Exchange σ)) : Prop where
  /-- At most three list requests come first. -/
  list_tries : Tries (self.listRequest domain) 3 lists
  /-- Writes are sent only after a list response with `success`, and at most three of one kind. -/
  write_tries : writes ≠ [] → ∃ r, Succeeded BodyText.asList lists r ∧ WriteTries self domain addrStr r writes
  /-- Nothing is repeated but after a `429`. -/
  repeats : RepeatsAfterLimit (lists ++ writes)
  /-- At most one write has an answer that is not a `429`. -/
  once : (writes.filter fun x => !x.limited).length ≤ 1
  /-- No write is sent for an address that is listed first. -/
  correct : ∀ r record records, Succeeded BodyText.asList lists r → r.result = some (record :: records) →
    record.content = addrStr → writes = []
  ok_iff : result = .ok () ↔ SetSucceeded addrStr lists writes

/-- Before an exchange that is not the first there is a `429` to the same request. -/
theorem Tries.prev {req : HttpRequest} {n : Nat} {before after : List (Exchange σ)} {x : Exchange σ}
    (h : Tries req n (before ++ x :: after)) (hne : before ≠ []) :
    ∃ y, before.getLast? = some y ∧ y.request = x.request ∧ y.limited = true := by
  obtain ⟨init, y, rfl⟩ := List.eq_nil_or_concat'  before |>.resolve_left hne
  have hreq : ∀ z ∈ init ++ [y] ++ x :: after, z.request = req := h.request
  refine ⟨y, List.getLast?_concat, ?_, h.limited y ?_⟩
  · rw [hreq y (by simp), hreq x (by simp)]
  · rw [List.dropLast_append_of_ne_nil (List.cons_ne_nil _ _)]
    simp

/-- The tries of two different requests, one after the other. -/
theorem repeatsAfterLimit_append {req req' : HttpRequest} {n m : Nat} {xs ys : List (Exchange σ)}
    (hx : Tries req n xs) (hy : Tries req' m ys) (hne : req ≠ req') : RepeatsAfterLimit (xs ++ ys) := by
  rintro before x after hlog ⟨y, hy', hreq⟩
  rcases List.append_eq_append_iff.1 hlog with ⟨zs, rfl, rfl⟩ | ⟨zs, rfl, hzs⟩
  · -- in the second list, where only its own exchanges have the same request
    have hxreq : x.request = req' := hy.request x (by simp)
    have hzs : zs ≠ [] := by
      rintro rfl
      rw [List.append_nil] at hy'
      exact hne ((hx.request y hy').symm.trans (hreq.trans hxreq))
    obtain ⟨z, hlast, hz⟩ := hy.prev hzs
    exact ⟨z, by rw [List.getLast?_append_of_ne_nil _ hzs, hlast], hz⟩
  · cases zs with
    | nil =>
      have hxreq : x.request = req' := hy.request x (by rw [← List.nil_append ys, ← hzs]; exact List.mem_cons_self)
      exact absurd ((hx.request y (List.mem_append_left _ hy')).symm.trans (hreq.trans hxreq)) hne
    | cons z zs =>
      obtain ⟨rfl, -⟩ := List.cons.inj hzs
      exact hx.prev (List.ne_nil_of_mem hy')

theorem Tries.once {req : HttpRequest} {n : Nat} {xs : List (Exchange σ)} (h : Tries req n xs) :
    (xs.filter fun x => !x.limited).length ≤ 1 := by
  rcases List.eq_nil_or_concat' xs with rfl | ⟨init, x, rfl⟩
  · exact Nat.zero_le 1
  · have hinit : init.filter (fun x => !x.limited) = [] := by
      rw [List.filter_eq_nil_iff]
      intro y hy
      rw [h.limited y (by rw [List.dropLast_concat]; exact hy)]
      exact Bool.false_ne_true
    rw [List.filter_append, hinit, List.nil_append]
    exact List.length_filter_le _ _

/-- A response is read from the last answer. -/
theorem readAnswer_ok_iff {parse : BodyText → Except String (CfApiResponse α)} {path : String}
    {answer : Except String HttpResponse} {r : CfApiResponse α} : readAnswer parse path answer = .ok r ↔
      ∃ response body, answer = .ok response ∧ response.isSuccess = true ∧ response.text = .ok body ∧
        parse body = .ok r := by
  constructor
  · intro h
    cases answer with
    | error e => cases h
    | ok response =>
      obtain ⟨body, ht, hs, hp⟩ := readResponse_ok h
      exact ⟨response, body, rfl, hs, ht, hp⟩
  · rintro ⟨response, body, rfl, hs, ht, hp⟩
    simp only [readAnswer, readResponse, ht, hs, if_true, hp]
    rfl

section Calls

variable (self : CloudflareUpdater) (http : Http σ)

/-- One request of `set_record`, as it is recorded. -/
theorem requestWithRetry_recording (parse : BodyText → Except String (CfApiResponse α)) (method : Method)
    (path : String) (body : Option CfBody) (w : σ) : ∃ xs last,
    Performs http (self.httpRequest method path body) 3 w xs last ∧
    (self.requestWithRetry http parse method path body w).2 = last.after ∧
    (∀ log, self.requestWithRetry http.recording parse method path body ⟨w, log⟩ =
      ((self.requestWithRetry http parse method path body w).1, ⟨last.after, log ++ xs⟩)) ∧
    ∀ r, Succeeded parse xs r ↔
      (self.requestWithRetry http parse method path body w).1 = .ok r ∧ r.success = true := by
  obtain ⟨xs, last, hperf, hout, hlog⟩ := requestLoop_recording self http parse method path body 2 w
  refine ⟨xs, last, hperf, ?_, fun log => ?_, fun r => ?_⟩
  · rw [requestWithRetry, hout]
  · simp only [requestWithRetry, hout, hlog]
  · simp only [requestWithRetry, hout, readAnswer_ok_iff]
    constructor
    · rintro ⟨x, response, text, hx, ha, hs, ht, hp, hsuccess⟩
      rw [hperf.getLast?] at hx
      cases hx
      exact ⟨⟨response, text, ha, hs, ht, hp⟩, hsuccess⟩
    · rintro ⟨⟨response, text, ha, hs, ht, hp⟩, hsuccess⟩
      exact ⟨last, response, text, hperf.getLast?, ha, hs, ht, hp, hsuccess⟩

/-- A write of `set_record`, as it is recorded. -/
theorem finish_recording (domain label : String) (method : Method) (path : String) (body : Option CfBody) (w : σ) :
    ∃ xs last, Performs http (self.httpRequest method path body) 3 w xs last ∧
    (finish domain label (self.requestWithRetry http BodyText.asRecord method path body w)).2 = last.after ∧
    (∀ log, finish domain label
        (self.requestWithRetry http.recording BodyText.asRecord method path body ⟨w, log⟩) =
      ((finish domain label (self.requestWithRetry http BodyText.asRecord method path body w)).1,
        ⟨(finish domain label (self.requestWithRetry http BodyText.asRecord method path body w)).2, log ++ xs⟩)) ∧
    ((finish domain label (self.requestWithRetry http BodyText.asRecord method path body w)).1 = .ok () ↔
      ∃ r, Succeeded BodyText.asRecord xs r) := by
  obtain ⟨xs, last, hperf, hworld, hlog, hok⟩ :=
    requestWithRetry_recording self http BodyText.asRecord method path body w
  refine ⟨xs, last, hperf, (finish_spec domain label _).1.trans hworld, fun log => ?_, ?_⟩
  · rw [hlog, ← hworld]
    rcases self.requestWithRetry http BodyText.asRecord method path body w with ⟨e | r, w'⟩
    · rfl
    · simp only [finish]
      split <;> rfl
  · simp only [(finish_spec domain label _).2, hok]

theorem Succeeded.unique {parse : BodyText → Except String (CfApiResponse α)} {xs : List (Exchange σ)}
    {r r' : CfApiResponse α} (h : Succeeded parse xs r) (h' : Succeeded parse xs r') : r = r' := by
  obtain ⟨x, response, body, hx, ha, -, ht, hp, -⟩ := h
  obtain ⟨x', response', body', hx', ha', -, ht', hp', -⟩ := h'
  cases hx.symm.trans hx'
  cases ha.symm.trans ha'
  cases ht.symm.trans ht'
  exact Except.ok.inj (hp.symm.trans hp')

theorem not_succeeded_nil {parse : BodyText → Except String (CfApiResponse α)} {r : CfApiResponse α} :
    ¬Succeeded parse ([] : List (Exchange σ)) r := by
  rintro ⟨_, _, _, hlast, _⟩
  cases hlast

/-- No write is sent after a list that was not read. -/
theorem not_setSucceeded_of_unlisted {addrStr : String} {lists : List (Exchange σ)}
    (h : ∀ r, ¬Succeeded BodyText.asList lists r) : ¬SetSucceeded addrStr lists [] := by
  rintro (⟨r, _, _, hr, _⟩ | ⟨r, hr⟩)
  · exact h r hr
  · exact not_succeeded_nil hr

/-- With a first record that is not correct, or none at all, the write decides. -/
theorem setSucceeded_iff_write {addrStr : String} {lists writes : List (Exchange σ)}
    {response : CfApiResponse (List CfDnsRecord)} (hr : Succeeded BodyText.asList lists response)
    (hc : ∀ record records, response.result = some (record :: records) → record.content ≠ addrStr) :
    SetSucceeded addrStr lists writes ↔ ∃ r, Succeeded BodyText.asRecord writes r := by
  refine ⟨fun h => h.resolve_left ?_, Or.inr⟩
  rintro ⟨r, record, records, hr', hres, hcontent⟩
  rw [hr'.unique hr] at hres
  exact hc record records hres hcontent

/-- Without a write there is nothing to say of one. -/
theorem SetDiscipline.of_lists {domain addrStr : String} {result : Except Error Unit} {lists : List (Exchange σ)}
    (hl : Tries (self.listRequest domain) 3 lists) (hok : result = .ok () ↔ SetSucceeded addrStr lists []) :
    SetDiscipline self domain addrStr result lists [] where
  list_tries := hl
  write_tries := fun h => absurd rfl h
  repeats := by
    rw [List.append_nil]
    rintro before x after rfl ⟨y, hy, -⟩
    exact hl.prev (List.ne_nil_of_mem hy)
  once := Nat.zero_le 1
  correct := fun _ _ _ _ _ _ => rfl
  ok_iff := hok

/-- A write after a list response `r` whose first record is not correct. -/
theorem SetDiscipline.of_write {domain addrStr : String} {result : Except Error Unit} {lists writes : List (Exchange σ)}
    {r : CfApiResponse (List CfDnsRecord)} {req : HttpRequest} (hl : Tries (self.listRequest domain) 3 lists)
    (hr : Succeeded BodyText.asList lists r) (hreq : req.method ≠ .get) (hw : Tries req 3 writes)
    (hwrite : WriteTries self domain addrStr r writes)
    (hc : ∀ record records, r.result = some (record :: records) → record.content ≠ addrStr)
    (hok : result = .ok () ↔ SetSucceeded addrStr lists writes) :
    SetDiscipline self domain addrStr result lists writes where
  list_tries := hl
  write_tries := fun _ => ⟨r, hr, hwrite⟩
  repeats := repeatsAfterLimit_append hl hw fun he => hreq (he ▸ rfl)
  once := hw.once
  correct := fun r' record records hr' hres hcontent => by
    rw [hr'.unique hr] at hres
    exact absurd hcontent (hc record records hres)
  ok_iff := hok

/-- The exchanges of a call have the discipline. -/
theorem SetExchanges.discipline {domain addrStr : String} {w : σ} {result : Except Error Unit}
    {lists writes : List (Exchange σ)} (h : SetExchanges self http domain addrStr w lists writes)
    (hok : result = .ok () ↔ SetSucceeded addrStr lists writes) :
    lists ≠ [] ∧ SetDiscipline self domain addrStr result lists writes := by
  cases h with
  | list hl => exact ⟨hl.ne_nil, .of_lists self hl.tries hok⟩
  | patch hl hs hr hc hw =>
    refine ⟨hl.ne_nil, .of_write self hl.tries hs (by rintro ⟨⟩) hw.tries
      (.patch _ _ hr hc hw.ne_nil hw.tries) (fun record records hr' => ?_) hok⟩
    cases hr.symm.trans hr'
    exact hc
  | create hl hs hr hw =>
    refine ⟨hl.ne_nil, .of_write self hl.tries hs (by rintro ⟨⟩) hw.tries (.create hr hw.ne_nil hw.tries)
      (fun record records hr' => ?_) hok⟩
    rw [hr'] at hr
    cases hr

theorem Performs.last_mem {req : HttpRequest} {n : Nat} {w : σ} {xs : List (Exchange σ)} {last : Exchange σ}
    (h : Performs http req n w xs last) : last ∈ xs := List.mem_of_getLast? h.getLast?

/-- A call of `set_record`, as it is recorded. It ends in the world after one of its exchanges. -/
theorem setRecord_recording (domain : String) (addr : Ipv6Addr) (w : σ) : ∃ lists writes,
    (∃ x ∈ lists ++ writes, (self.setRecord http domain addr w).2 = x.after) ∧
    (∀ log, self.setRecord http.recording domain addr ⟨w, log⟩ = ((self.setRecord http domain addr w).1,
      ⟨(self.setRecord http domain addr w).2, log ++ (lists ++ writes)⟩)) ∧
    SetExchanges self http domain addr.toString w lists writes ∧
    ((self.setRecord http domain addr w).1 = .ok () ↔ SetSucceeded addr.toString lists writes) := by
  obtain ⟨lists, last, hperf, hworld, hlog, hok⟩ :=
    requestWithRetry_recording self http BodyText.asList .get (self.listPath domain) none w
  rcases hout : self.requestWithRetry http BodyText.asList .get (self.listPath domain) none w with ⟨answer, w'⟩
  simp only [hout] at hworld hlog hok
  subst hworld
  by_cases hfail : ∀ response, answer = .ok response → response.success = false
  · -- there is no list to go by
    obtain ⟨e, he⟩ := setRecord_unlisted self domain addr hfail
    have hunlisted : ∀ r, ¬Succeeded BodyText.asList lists r := by
      intro r hr
      obtain ⟨hanswer, hs⟩ := (hok r).1 hr
      cases (hfail r hanswer).symm.trans hs
    rw [he http w last.after hout]
    refine ⟨lists, [], ⟨last, List.mem_append_left _ hperf.last_mem, rfl⟩, fun log => ?_, .list hperf, ?_⟩
    · rw [he http.recording ⟨w, log⟩ _ (hlog log), List.append_nil]
    · simp [not_setSucceeded_of_unlisted hunlisted]
  · obtain ⟨response, rfl, hs⟩ : ∃ response, answer = .ok response ∧ response.success = true := by
      simpa using hfail
    have hr : Succeeded BodyText.asList lists response := (hok response).2 ⟨rfl, hs⟩
    obtain hnil | ⟨record, records, hres⟩ := records_nil_or_cons response
    · -- no record is listed, so one is created
      obtain ⟨writes, last', hwrite, hwworld, hwlog, hwok⟩ := finish_recording self http domain "API errors on create"
        .post self.recordsPath (some (.createRecord "AAAA" domain addr.toString 120)) last.after
      have hfirst : ∀ record records, response.result = some (record :: records) →
          record.content ≠ addr.toString := by
        intro record records hres
        rw [hres] at hnil
        cases hnil
      rw [setRecord_listed_nil hout hs hnil]
      refine ⟨lists, writes, ⟨last', List.mem_append_right _ hwrite.last_mem, hwworld⟩, fun log => ?_,
        .create hperf hr hnil hwrite, hwok.trans (setSucceeded_iff_write hr hfirst).symm⟩
      rw [setRecord_listed_nil (hlog log) hs hnil, ← List.append_assoc]
      exact hwlog _
    · by_cases hc : record.content = addr.toString
      · -- it is correct
        rw [setRecord_listed_correct hout hs hres hc]
        refine ⟨lists, [], ⟨last, List.mem_append_left _ hperf.last_mem, rfl⟩, fun log => ?_, .list hperf,
          fun _ => Or.inl ⟨response, record, records, hr, hres, hc⟩, fun _ => rfl⟩
        rw [setRecord_listed_correct (hlog log) hs hres hc, List.append_nil]
      · -- the first listed record is patched
        obtain ⟨writes, last', hwrite, hwworld, hwlog, hwok⟩ := finish_recording self http domain
          "API errors on update" .patch (self.recordPath record.id) (some (.updateRecord addr.toString)) last.after
        have hfirst : ∀ record records, response.result = some (record :: records) →
            record.content ≠ addr.toString := by
          intro record' records' hres'
          cases hres.symm.trans hres'
          exact hc
        rw [setRecord_listed_cons hout hs hres hc]
        refine ⟨lists, writes, ⟨last', List.mem_append_right _ hwrite.last_mem, hwworld⟩, fun log => ?_,
          .patch hperf hr hres hc hwrite, hwok.trans (setSucceeded_iff_write hr hfirst).symm⟩
        rw [setRecord_listed_cons (hlog log) hs hres hc, ← List.append_assoc]
        exact hwlog _

end Calls

/-- **Request discipline.** Whatever the answers are, a call of `set_record` sends some list requests and then some
writes, and its result is what `SetDiscipline` says of them. -/
theorem setRecord_discipline (self : CloudflareUpdater) (http : Http σ) (domain : String) (addr : Ipv6Addr) (w : σ) :
    ∃ lists writes, self.setRecord http.recording domain addr ⟨w, []⟩ = ((self.setRecord http domain addr w).1,
      ⟨(self.setRecord http domain addr w).2, lists ++ writes⟩) ∧ lists ≠ [] ∧
      SetDiscipline self domain addr.toString (self.setRecord http domain addr w).1 lists writes := by
  obtain ⟨lists, writes, -, hlog, hexchanges, hok⟩ := setRecord_recording self http domain addr w
  exact ⟨lists, writes, hlog [], hexchanges.discipline self http hok⟩

end DdnsIpv6

import DdnsIpv6.Cycle.SkipSafety
import DdnsIpv6.Tasks.Fresh
import DdnsIpv6.Updater.Remote

/-!
# From the last advertisement to the server

The process with its updater and a server that nobody else writes. As long as no call for a domain with a cache entry
ends in an error after it has changed the record (`FairCall`), the cache has what the server has (`coherent_run`). A
quiet process has acted on the last advertisement, so the server itself has the new addresses of its hosts
(`quiet_delivered`): the name server of `Rfc2136Updater`, and the zone of `CloudflareUpdater` for domains that its list
request asks for.
-/

namespace DdnsIpv6

open Lib Lib.WriteThrough Prefix CloudflareUpdater

section Served

variable {σ : Type} {cfg : Setup} {u : LossyUpdater σ} {v : DnsUpdater σ} {D : String → Prop} {s t : Served σ}

/-- The visit of the next host of the cycle, if it is a call. -/
def nextVisit (u : LossyUpdater σ) (s : Served σ) : Option (Visit String Ipv6Addr σ Error) :=
  s.task.nextCall.map fun (domain, addr) => ⟨s.daemon, domain, addr, (put u.setRecord domain addr s.daemon).1⟩

/-- If the step is a call, it is one for a domain of `D`, and not one that fails under a cache entry after it has
changed the record of the server: set it, or deleted it. -/
def FairCall (u : LossyUpdater σ) (D : String → Prop) (s : Served σ) : TaskEvent → Prop
  | .main (.seedRecord _) => ∀ domain ∈ s.task.nextQuery, D domain
  | .main (.host _) => ∀ x ∈ nextVisit u s, D x.key ∧ ¬u.store.Disturbs x
  | _ => True

/-- If the step is a call, it is one for a domain of `D`, and it succeeds if it sets a record. -/
def SuccessfulCall (u : LossyUpdater σ) (D : String → Prop) (s : Served σ) : TaskEvent → Prop
  | .main (.seedRecord _) => ∀ domain ∈ s.task.nextQuery, D domain
  | .main (.host _) => ∀ x ∈ nextVisit u s, D x.key ∧ x.report.answer ≠ some false
  | _ => True

instance [DecidablePred D] (s : Served σ) : ∀ e, Decidable (SuccessfulCall u D s e)
  | .main (.seedRecord _) => inferInstanceAs (Decidable (∀ domain ∈ s.task.nextQuery, D domain))
  | .main (.host _) => inferInstanceAs (Decidable (∀ x ∈ nextVisit u s, D x.key ∧ x.report.answer ≠ some false))
  | .main .spawnListener | .main .newReturns | .main (.seedHosts _) | .main .startupCycle | .main .callDetect
  | .main (.detectReturns _) | .main (.discovered _) | .main .endCycle | .main .spawnSignalTasks | .main .subscribe
  | .main .changed | .main .notified | .main .cancelled | .listener _ | .signal _ => .isTrue trivial

/-- A call that succeeds is fair. -/
theorem SuccessfulCall.fair {e : TaskEvent} (h : SuccessfulCall u D s e) : FairCall u D s e := by
  unfold FairCall
  split
  · exact h
  · exact fun x hx => ⟨(h x hx).1, fun hstale => (h x hx).2 hstale.2.1⟩
  · trivial

/-- A query for a domain of `D`. -/
theorem ServesAs.seedCache_eq (hs : ServesAs u v D) {e : Ipv6Addr × String} (hd : D e.2) (d : Daemon σ) :
    seedCache v [e] d = seedCache u.toDnsUpdater [e] d := by
  simp only [seedCache, hs.getRecord e.2 hd]

/-- A host whose domain is one of `D`, or that is skipped. -/
theorem ServesAs.put_eq (hs : ServesAs u v D) {domain : String} {addr : Ipv6Addr} {d : Daemon σ}
    (hd : d.cache domain ≠ some addr → D domain) :
    put v.setRecord domain addr d = put u.setRecord domain addr d := by
  by_cases hc : d.cache domain = some addr
  · rw [put_of_agrees hc, put_of_agrees hc]
  · rw [put, put, if_neg hc, if_neg hc, hs.setRecord domain (hd hc)]

/-- **A fair step keeps the cache coherent with the server.** -/
theorem coherent_step (hs : ServesAs u v D) {e : TaskEvent} (hi : u.Coherent s.daemon) (hf : FairCall u D s e)
    (h : servedStep cfg v s e = some t) : u.Coherent t.daemon := by
  cases servedStep_cases h with
  | seedRecord answer e todo before after daemon =>
    rw [daemon, hs.seedCache_eq (hf e.2 (by simp only [TaskState.nextQuery, before, Option.mem_some_iff]))]
    exact u.coherent_seedCache hi
  | host outcome startup p suffix domain todo before after report daemon =>
    have hnext : s.task.cache domain ≠ some (combine p suffix) → nextVisit u s =
        some ⟨s.daemon, domain, combine p suffix, (put u.setRecord domain (combine p suffix) s.daemon).1⟩ := by
      intro hc
      simp only [nextVisit, TaskState.nextCall, before, if_neg hc, Option.map_some]
    rw [daemon, hs.put_eq fun hc => (hf _ (hnext hc)).1]
    refine u.coherent_put hi fun hstale => ?_
    by_cases hc : s.task.cache domain = some (combine p suffix)
    · -- a host that is skipped is no call
      have hanswer : (put u.setRecord domain (combine p suffix) s.daemon).1.answer = some false := hstale.2.1
      rw [put_of_agrees (s := s.daemon) hc] at hanswer
      cases hanswer
    · exact (hf _ (hnext hc)).2 hstale
  | other e _ _ daemon =>
    rw [daemon]
    exact hi

/-- In every interleaving whose calls are fair the cache has what the server has. -/
theorem coherent_run (hs : ServesAs u v D) {w : σ} {es : List TaskEvent}
    (hf : Along (servedStep cfg v) (FairCall u D) (.init w) es) (hr : run (servedStep cfg v) (.init w) es = some t) :
    u.Coherent t.daemon :=
  run_inv_along (I := fun s => u.Coherent s.daemon) (fun _ _ _ hi hf h => coherent_step hs hi hf h)
    (u.coherent_atStart w) hf hr

/-- What the cache has of a cycle, the server has. -/
theorem UpToDate.of_coherent {h : History} {c : CycleRecord σ} (hu : UpToDate h t.task.cache c)
    (hc : u.Coherent t.daemon) : UpToDate h (u.records t.world) c :=
  ⟨hu.detected, fun p hp hok before e after hhosts hlast => hc _ _ (hu.cached p hp hok before e after hhosts hlast)⟩

/-- At rest the server has the addresses of the last cycle, which has acted on the last advertisement. -/
theorem quiet_delivered (hs : ServesAs u v D) {interface : String} (hra : cfg.method = .ra interface) {w : σ}
    {es : List TaskEvent} {h : History} (hr : run (recorded cfg v) (.init w, .empty) es = some (t, h))
    (hw : Along (servedStep cfg v) (fun s e => NoSendInWindow s.task e) (.init w) es)
    (hf : Along (servedStep cfg v) (FairCall u D) (.init w) es) (hq : t.task.Quiet) :
    ∃ a c, run (sourceStep cfg.method v) (h.start v w) h.events = some a ∧ a.cycles.head? = some c ∧
      UpToDate h (u.records t.world) c := by
  have hi : FreshInv cfg v w t h := by
    refine observed_inv_along (I := FreshInv cfg v w) (fun s h e t hi hw he => ?_) freshInv_init hw hr
    exact freshInv_step hra hi hw he
  obtain ⟨a, c, hrun, hc, hu⟩ := hi.upToDate hra hq
  exact ⟨a, c, hrun, hc, hu.of_coherent (coherent_run hs hf (run_of_observed hr))⟩

end Served

/-! ## The two servers -/

section Servers

variable {h : History}

/-- **At rest the name server has the addresses of the last advertisement**, in every interleaving from process start in
which no change is sent in the window and every call is fair, whatever else happens to the messages: the last cycle of a
quiet process has detected the prefix of the last packet that has one, and unless one of its calls failed the name
server lists the address with this prefix first for its hosts (for the last entry of each domain). -/
theorem rfc2136_delivered (cfg : Setup) {interface : String} (hra : cfg.method = .ra interface) (w : RemoteNameServer)
    {es : List TaskEvent} {t : Served RemoteNameServer}
    (hr : run (recorded cfg nameServerUpdater.toDnsUpdater) (.init w, .empty) es = some (t, h))
    (hw : Along (servedStep cfg nameServerUpdater.toDnsUpdater) (fun s e => NoSendInWindow s.task e) (.init w) es)
    (hf : Along (servedStep cfg nameServerUpdater.toDnsUpdater) (FairCall nameServerLossy fun _ => True) (.init w) es)
    (hq : t.task.Quiet) :
    ∃ a c, run (sourceStep cfg.method nameServerUpdater.toDnsUpdater) (h.start nameServerUpdater.toDnsUpdater w)
      h.events = some a ∧ a.cycles.head? = some c ∧ UpToDate h t.world.state.firstRecords c :=
  quiet_delivered rfc2136_servesAs hra hr hw hf hq

/-- **At rest the zone has the addresses of the last advertisement**, if besides this the list request asks for every
domain that is queried or set. -/
theorem cloudflare_delivered (cfg : Setup) {interface : String} (hra : cfg.method = .ra interface) (api : ZoneApi)
    (token : String) (w : Remote api.service) {es : List TaskEvent} {t : Served (Remote api.service)}
    (hr : run (recorded cfg ((api.updater token).toDnsUpdater api.http)) (.init w, .empty) es = some (t, h))
    (hw : Along (servedStep cfg ((api.updater token).toDnsUpdater api.http)) (fun s e => NoSendInWindow s.task e)
      (.init w) es)
    (hf : Along (servedStep cfg ((api.updater token).toDnsUpdater api.http))
      (FairCall (cloudflareRemote api token).lossy QueriesOwn) (.init w) es)
    (hq : t.task.Quiet) :
    ∃ a c, run (sourceStep cfg.method ((api.updater token).toDnsUpdater api.http))
      (h.start ((api.updater token).toDnsUpdater api.http) w) h.events = some a ∧ a.cycles.head? = some c ∧
      UpToDate h (firstAddress t.world.state.records) c :=
  quiet_delivered (cloudflare_servesAs api token) hra hr hw hf hq

end Servers

/-- The second packet comes to the name server. -/
theorem rfc2136_delivered_nas : ∃ t h,
    run (recorded sampleSetup nameServerUpdater.toDnsUpdater) (.init ⟨fun _ => [], []⟩, .empty) sampleReadvertised =
      some (t, h) ∧
    t.world.state "nas.example.com" = [⟨0x2001, 0xdb8, 1, 2, 0, 0, 0, 1⟩] ∧
    ∃ a c, run (sourceStep sampleSetup.method nameServerUpdater.toDnsUpdater)
      (h.start nameServerUpdater.toDnsUpdater ⟨fun _ => [], []⟩) h.events = some a ∧ a.cycles.head? = some c ∧
      UpToDate h t.world.state.firstRecords c :=
  ⟨_, _, rfl, rfl, rfc2136_delivered sampleSetup rfl ⟨fun _ => [], []⟩ (show run _ _ sampleReadvertised = _ from rfl)
    (by decide) (Along.imp (fun _ _ => SuccessfulCall.fair) (by decide)) ⟨rfl, by decide, by decide⟩⟩

/-- The prefix of a packet changes, and changes back. -/
def sampleChangedBack : List TaskEvent :=
  sampleStartup ++ [.main (.discovered none), .main (.host (.ok ())), .main .endCycle, .main .spawnSignalTasks,
    .main .subscribe, .listener (.packet (samplePacket.set 39 3)), .listener .send, .main .changed, .main .callDetect,
    .main (.detectReturns ⟨.error "", .error ""⟩), .main (.discovered none),
    .main (.host (.error (.update "nas.example.com" (.client "timed out")))), .main .endCycle,
    .listener (.packet samplePacket), .listener .send, .main .changed, .main .callDetect,
    .main (.detectReturns ⟨.error "", .error ""⟩), .main (.discovered none), .main (.host (.ok ())), .main .endCycle]

/-- Where a call is not fair: it has deleted the record and then fails, when the prefix changes, and the host is skipped
when the prefix has changed back. The process is at rest, and the server has no record. -/
theorem not_delivered_deleted : ∃ t h,
    run (recorded sampleSetup nameServerUpdater.toDnsUpdater) (.init ⟨fun _ => [],
      [.good _, .good _, .good _, .good _, .good _, .good _, lostMessage false]⟩, .empty) sampleChangedBack =
      some (t, h) ∧
    t.task.Quiet ∧ t.task.cache "nas.example.com" = some ⟨0x2001, 0xdb8, 1, 2, 0, 0, 0, 1⟩ ∧
    t.world.state "nas.example.com" = [] :=
  ⟨_, _, rfl, ⟨rfl, by decide, by decide⟩, rfl, rfl⟩

set_option maxRecDepth 4000 in
/-- The second packet comes to the zone. -/
theorem cloudflare_delivered_nas : ∃ t h,
    run (recorded sampleSetup ((sampleApi.updater "token").toDnsUpdater sampleApi.http))
      (.init ⟨emptyZone, []⟩, .empty) sampleReadvertised = some (t, h) ∧
    t.world.state.addresses "nas.example.com" = [⟨0x2001, 0xdb8, 1, 2, 0, 0, 0, 1⟩] ∧
    ∃ a c, run (sourceStep sampleSetup.method ((sampleApi.updater "token").toDnsUpdater sampleApi.http))
      (h.start ((sampleApi.updater "token").toDnsUpdater sampleApi.http) ⟨emptyZone, []⟩) h.events = some a ∧
      a.cycles.head? = some c ∧ UpToDate h (firstAddress t.world.state.records) c :=
  ⟨_, _, rfl, by decide, cloudflare_delivered sampleSetup rfl sampleApi "token" ⟨emptyZone, []⟩
    (show run _ _ sampleReadvertised = _ from rfl)
    (by decide) (Along.imp (fun _ _ => SuccessfulCall.fair) (by decide)) ⟨rfl, by decide, by decide⟩⟩

end DdnsIpv6

import DdnsIpv6.Tasks.Notify
import DdnsIpv6.Tasks.Served
import DdnsIpv6.Updater.NoDuplicates
import DdnsIpv6.Updater.Wire

/-!
# What the process sends

An observer lists the calls of the process, queries at startup and records that are set. In every interleaving, and
whatever the server answers, what the updater's client does is the logs of these calls, one after the other
(`wire_log`): nothing is asked of it besides, and the process does not wait for a server but in the retries of a request
(`cloudflare_wire`, `rfc2136_wire`).
-/

namespace DdnsIpv6

open Lib Lib.WriteThrough

/-- The call that a step makes, if it makes one. -/
def TaskState.callOf (s : TaskState) : TaskEvent → Option (Call String Ipv6Addr)
  | .main (.seedRecord _) => s.nextQuery.map .read
  | .main (.host _) => s.nextCall.map fun (domain, addr) => .write domain addr
  | _ => none

section Logs

variable {σ η : Type} {cfg : Setup} {u : DnsUpdater σ} {v : DnsUpdater (Logged σ η)}
  {P : Call String Ipv6Addr → List η → Prop} {s t : Served σ}

/-- The list of the calls. -/
def noteCall (s : Served σ) (e : TaskEvent) (_ : Served σ) (calls : List (Call String Ipv6Addr)) :
    List (Call String Ipv6Addr) :=
  calls ++ (s.task.callOf e).toList

/-- The process with a log is in the state of the process without one, and its log is those of the calls. -/
def LogOf (P : Call String Ipv6Addr → List η → Prop) (s : Served σ × List (Call String Ipv6Addr))
    (s' : Served (Logged σ η)) : Prop :=
  ∃ logs, List.Forall₂ P s.2 logs ∧ s' = ⟨s.1.task, ⟨s.1.world, logs.flatten⟩⟩

/-- What a step does to the world, with its log. -/
theorem serve_logged (hl : u.client.LoggedBy v.client P) {e : TaskEvent} {w : σ} (h : serve u s e = some w) :
    ∃ logs, List.Forall₂ P (s.task.callOf e).toList logs ∧
      ∀ log, serve v ⟨s.task, ⟨s.world, log⟩⟩ e = some ⟨w, log ++ logs.flatten⟩ := by
  unfold serve at h
  split at h
  · -- a query at startup
    rename_i answer _ domain todo hpc
    obtain ⟨es, hes, hlog⟩ := hl.read domain s.world
    simp only [DnsUpdater.client] at hlog
    refine ⟨[es], ?_, fun log => ?_⟩
    · simp only [TaskState.callOf, TaskState.nextQuery, hpc, Option.map_some, Option.toList_some]
      exact .cons hes .nil
    · simp only [serve, hpc, hlog]
      split at h
      · rename_i hanswer
        cases h
        rw [if_pos hanswer, List.flatten_singleton]
      · cases h
  · -- a host
    rename_i outcome pc
    split at h
    · rename_i hnext
      cases h
      refine ⟨[], ?_, fun log => ?_⟩
      · simp only [TaskState.callOf, hnext, Option.map_none, Option.toList_none]
        exact .nil
      · simp only [serve, hnext, List.flatten_nil, List.append_nil]
    · rename_i domain addr hnext
      obtain ⟨es, hes, hlog⟩ := hl.write domain addr s.world
      simp only [DnsUpdater.client] at hlog
      refine ⟨[es], ?_, fun log => ?_⟩
      · simp only [TaskState.callOf, hnext, Option.map_some, Option.toList_some]
        exact .cons hes .nil
      · simp only [serve, hnext, hlog]
        split at h
        · rename_i houtcome
          cases h
          rw [if_pos houtcome, List.flatten_singleton]
        · cases h
  · -- no call
    rename_i e _ _ hhost hseed
    cases h
    have hcall : s.task.callOf e = none := by
      unfold TaskState.callOf
      split
      · rename_i answer
        unfold TaskState.nextQuery
        split
        · rename_i suffix domain todo hpc
          exact (hseed answer suffix domain todo rfl hpc).elim
        · rfl
      · rename_i outcome
        exact (hhost outcome rfl).elim
      · rfl
    refine ⟨[], by rw [hcall]; exact .nil, fun log => ?_⟩
    rw [List.flatten_nil, List.append_nil]
    unfold serve
    split
    · rename_i answer suffix domain todo hpc
      exact (hseed answer suffix domain todo rfl hpc).elim
    · rename_i outcome
      exact (hhost outcome rfl).elim
    · rfl

/-- A step with its log. -/
theorem servedStep_logged (hl : u.client.LoggedBy v.client P) {e : TaskEvent} {calls : List (Call String Ipv6Addr)}
    {s' : Served (Logged σ η)} (hs : LogOf P (s, calls) s') (h : servedStep cfg u s e = some t) :
    ∃ t', servedStep cfg v s' e = some t' ∧ LogOf P (t, noteCall s e t calls) t' := by
  obtain ⟨logs, hlogs, rfl⟩ := hs
  obtain ⟨htask, hserve⟩ := taskStep_of_servedStep h
  obtain ⟨es, hes, hlog⟩ := serve_logged hl hserve
  refine ⟨⟨t.task, ⟨t.world, logs.flatten ++ es.flatten⟩⟩, ?_, logs ++ es, List.rel_append hlogs hes, ?_⟩
  · rw [servedStep, htask, Option.bind_some, hlog]
    rfl
  · rw [List.flatten_append]

/-- **The log of the process**, in every interleaving from process start: the logs of its calls, one after the other. -/
theorem wire_log (hl : u.client.LoggedBy v.client P) {w : σ} {es : List TaskEvent}
    {calls : List (Call String Ipv6Addr)} (hr : run (observed (servedStep cfg u) noteCall) (.init w, []) es =
      some (t, calls)) : ∃ logs, List.Forall₂ P calls logs ∧
    run (servedStep cfg v) (.init ⟨w, []⟩) es = some ⟨t.task, ⟨t.world, logs.flatten⟩⟩ := by
  have hinit : LogOf P (.init w, []) (.init ⟨w, []⟩) := ⟨[], .nil, rfl⟩
  obtain ⟨t', hr', logs, hlogs, rfl⟩ :
      ∃ t', run (servedStep cfg v) (.init ⟨w, []⟩) es = some t' ∧ LogOf P (t, calls) t' := by
    refine run_sim (fun s s' e t hs h => ?_) hinit hr
    obtain ⟨m, hm, rfl⟩ := observed_eq_some.1 h
    exact servedStep_logged hl hs hm
  exact ⟨logs, hlogs, hr'⟩

/-- **What the process sends to the API**, in every interleaving and with every server: the requests and waits of its
calls, each of which sends a list request and perhaps one write, tries every request up to three times and waits only
after a `429`, for as long as the server says. -/
theorem cloudflare_wire (cfg : Setup) (self : CloudflareUpdater) (http : Http σ) (w : σ) {es : List TaskEvent}
    {calls : List (Call String Ipv6Addr)}
    (hr : run (observed (servedStep cfg (self.toDnsUpdater http)) noteCall) (.init w, []) es = some (t, calls)) :
    ∃ logs, List.Forall₂ (CfCallLog self) calls logs ∧
      run (servedStep cfg (self.toDnsUpdater http.logged)) (.init ⟨w, []⟩) es =
        some ⟨t.task, ⟨t.world, logs.flatten⟩⟩ :=
  wire_log (cloudflare_loggedBy self http) hr

/-- **What the process calls the DNS client for**, in every interleaving and with every client: one query for each call
of the updater, and one update of the record that is set unless the first record of the answer is correct. -/
theorem rfc2136_wire (cfg : Setup) (self : Rfc2136Updater σ) (w : σ) {es : List TaskEvent}
    {calls : List (Call String Ipv6Addr)}
    (hr : run (observed (servedStep cfg self.toDnsUpdater) noteCall) (.init w, []) es = some (t, calls)) :
    ∃ logs, List.Forall₂ DnsCallLog calls logs ∧
      run (servedStep cfg self.logged.toDnsUpdater) (.init ⟨w, []⟩) es = some ⟨t.task, ⟨t.world, logs.flatten⟩⟩ :=
  wire_log (rfc2136_loggedBy self) hr

end Logs

/-! ## What the calls are for -/

/-- What the process hears of: the hosts that Docker discovery returns, and the prefixes that `detect()` returns. -/
structure HeardOf where
  discovered : List HostEntry
  prefixes : List Ipv6Addr
  deriving DecidableEq, Repr

def HeardOf.nothing : HeardOf := ⟨[], []⟩

/-- The hosts that are configured or discovered. -/
def HeardOf.hosts (n : HeardOf) (cfg : Setup) : List (Ipv6Addr × String) := allSuffixes cfg.staticSuffixes n.discovered

section Calls

variable {σ : Type} {cfg : Setup} {u : DnsUpdater σ} {s t : Served σ} {n n' : HeardOf}

/-- The notes on a step. -/
def HeardOf.note (cfg : Setup) (s : Served σ) (e : TaskEvent) (_ : Served σ) (n : HeardOf) : HeardOf :=
  match e with
  | .main (.seedHosts hosts) | .main (.discovered hosts) => { n with discovered := n.discovered ++ hosts.getD [] }
  | .main (.detectReturns answers) =>
    match detect cfg.method (s.task.listener.bind Listener.last) answers with
    | .ok p => { n with prefixes := n.prefixes ++ [p] }
    | .error _ => n
  | _ => n

/-- A query is for one of the hosts, and an address that is set combines one of the prefixes with the suffix of the
host. -/
def HeardOf.Explains (n : HeardOf) (cfg : Setup) : Call String Ipv6Addr → Prop
  | .read domain => ∃ e ∈ n.hosts cfg, e.2 = domain
  | .write domain addr => ∃ e ∈ n.hosts cfg, e.2 = domain ∧ ∃ p ∈ n.prefixes, combine p e.1 = addr

/-- The prefix and the hosts that the main task works with were heard of. -/
def HeardOf.Covers (n : HeardOf) (cfg : Setup) : MainPc → Prop
  | .seeding todo => todo ⊆ n.hosts cfg
  | .cycle _ (.discovering p) => p ∈ n.prefixes
  | .cycle _ (.updating p todo) => p ∈ n.prefixes ∧ todo ⊆ n.hosts cfg
  | _ => True

/-- Nothing is forgotten. -/
structure HeardOf.Le (n n' : HeardOf) : Prop where
  discovered : n.discovered ⊆ n'.discovered
  prefixes : n.prefixes ⊆ n'.prefixes

theorem HeardOf.le_note (n : HeardOf) (s t : Served σ) (e : TaskEvent) : n.Le (n.note cfg s e t) := by
  unfold HeardOf.note
  split
  · exact ⟨List.subset_append_left _ _, List.Subset.refl _⟩
  · exact ⟨List.subset_append_left _ _, List.Subset.refl _⟩
  · split
    · exact ⟨List.Subset.refl _, List.subset_append_left _ _⟩
    · exact ⟨List.Subset.refl _, List.Subset.refl _⟩
  · exact ⟨List.Subset.refl _, List.Subset.refl _⟩

theorem HeardOf.Le.hosts (h : n.Le n') : n.hosts cfg ⊆ n'.hosts cfg :=
  List.append_subset.2 ⟨List.subset_append_left _ _,
    List.Subset.trans (List.map_subset _ h.discovered) (List.subset_append_right _ _)⟩

theorem HeardOf.Explains.mono {c : Call String Ipv6Addr} (hc : n.Explains cfg c) (h : n.Le n') :
    n'.Explains cfg c := by
  cases c with
  | read domain =>
    obtain ⟨e, he, hd⟩ := hc
    exact ⟨e, h.hosts he, hd⟩
  | write domain addr =>
    obtain ⟨e, he, hd, p, hp, ha⟩ := hc
    exact ⟨e, h.hosts he, hd, p, h.prefixes hp, ha⟩

theorem HeardOf.Covers.mono {pc : MainPc} (hc : n.Covers cfg pc) (h : n.Le n') : n'.Covers cfg pc := by
  unfold HeardOf.Covers at hc ⊢
  split at hc
  · exact List.Subset.trans hc h.hosts
  · exact h.prefixes hc
  · exact ⟨h.prefixes hc.1, List.Subset.trans hc.2 h.hosts⟩
  · trivial

/-- The hosts that are discovered now are heard of. -/
theorem hosts_of_discovered {hosts : Option (List HostEntry)} (h : hosts.getD [] ⊆ n.discovered) :
    allSuffixes cfg.staticSuffixes (hosts.getD []) ⊆ n.hosts cfg :=
  List.append_subset.2 ⟨List.subset_append_left _ _,
    List.Subset.trans (List.map_subset _ h) (List.subset_append_right _ _)⟩

/-- The next call is for a host that was heard of. -/
theorem HeardOf.Covers.explains {e : TaskEvent} (hc : n.Covers cfg s.task.pc) {c : Call String Ipv6Addr}
    (h : c ∈ (s.task.callOf e).toList) : n.Explains cfg c := by
  rw [Option.mem_toList] at h
  unfold TaskState.callOf at h
  split at h
  · obtain ⟨domain, hd, rfl⟩ := Option.map_eq_some_iff.1 h
    unfold TaskState.nextQuery at hd
    split at hd
    · rename_i suffix domain' todo hpc
      cases hd
      rw [hpc] at hc
      exact ⟨(suffix, domain), hc List.mem_cons_self, rfl⟩
    · cases hd
  · obtain ⟨⟨domain, addr⟩, hd, rfl⟩ := Option.map_eq_some_iff.1 h
    unfold TaskState.nextCall at hd
    split at hd
    · rename_i startup p suffix domain' todo hpc
      rw [hpc] at hc
      split at hd
      · cases hd
      · cases hd
        exact ⟨(suffix, domain), hc.2 List.mem_cons_self, rfl, p, hc.1, rfl⟩
    · cases hd
  · cases h

/-- The main task goes on with what was heard of. -/
theorem covers_main {m : MainEvent} (hc : n.Covers cfg s.task.pc) (h : mainStep cfg s.task m = some t.task) :
    (n.note cfg s (.main m) t).Covers cfg t.task.pc := by
  have hle : n.Le (n.note cfg s (.main m) t) := n.le_note s t (.main m)
  have hc' := hc.mono hle
  generalize ht : t.task = t' at h
  cases mainStep_cases h with
  | seedHosts hosts hpc => exact hosts_of_discovered (List.subset_append_right _ _)
  | seedRecord answer e todo hpc =>
    rw [hpc] at hc'
    exact (List.cons_subset.1 hc').2
  | detectReturns answers startup c hpc ok error =>
    cases hd : detect cfg.method (s.task.listener.bind Listener.last) answers with
    | error e =>
      rw [error e hd]
      trivial
    | ok p =>
      rw [ok p hd]
      simp only [HeardOf.Covers, HeardOf.note, hd]
      exact List.mem_append_right _ List.mem_cons_self
  | discovered hosts startup p hpc =>
    rw [hpc] at hc'
    refine ⟨hc', ?_⟩
    rw [collectSuffixes_snd]
    exact hosts_of_discovered (List.subset_append_right _ _)
  | host outcome startup p suffix domain todo hpc =>
    rw [hpc] at hc'
    exact ⟨hc'.1, (List.cons_subset.1 hc'.2).2⟩
  | endCycle startup c hpc hc => cases startup <;> trivial
  | spawnListener hpc | newReturns hpc | startupCycle hpc | callDetect startup hpc | spawnSignalTasks hpc
  | subscribe hpc | changed r r' hpc hr hc | notified hpc hp | cancelled hpc hc => trivial

/-- **Every step** goes on with what was heard of. -/
theorem covers_step {e : TaskEvent} (hc : n.Covers cfg s.task.pc) (h : servedStep cfg u s e = some t) :
    (n.note cfg s e t).Covers cfg t.task.pc := by
  obtain ⟨-, ⟨m, rfl, hm⟩ | ⟨l, rfl, hl⟩ | ⟨g, rfl, hg⟩⟩ := taskStep_cases (taskStep_of_servedStep h).1
  · exact covers_main hc hm
  · obtain ⟨hpc, -⟩ := listenerStep_frame hl
    rw [hpc]
    exact hc.mono (n.le_note s t _)
  · obtain ⟨-, -, -, -, -, hpc | hpc⟩ := signalStep_frame hg
    · rw [hpc]
      exact hc.mono (n.le_note s t _)
    · rw [hpc]
      trivial

/-- The calls of a run are for hosts and prefixes that the process has heard of. -/
theorem calls_explained {w : σ} {es : List TaskEvent} {calls : List (Call String Ipv6Addr)}
    (hr : run (observed (servedStep cfg u) (bothNotes (HeardOf.note cfg) noteCall)) (.init w, (.nothing, [])) es =
      some (t, (n, calls))) : ∀ c ∈ calls, n.Explains cfg c := by
  have hinit : HeardOf.nothing.Covers cfg (Served.init w).task.pc ∧
      ∀ c ∈ ([] : List (Call String Ipv6Addr)), HeardOf.nothing.Explains cfg c :=
    ⟨trivial, fun c hc => absurd hc List.not_mem_nil⟩
  refine (observed_inv (I := fun s (m : HeardOf × List (Call String Ipv6Addr)) =>
    m.1.Covers cfg s.task.pc ∧ ∀ c ∈ m.2, m.1.Explains cfg c) (fun s m e t hi h => ?_) hinit hr).2
  refine ⟨covers_step hi.1 h, fun c hc => ?_⟩
  rcases List.mem_append.1 hc with hc | hc
  · exact (hi.2 c hc).mono (m.1.le_note s t e)
  · exact (hi.1.explains hc).mono (m.1.le_note s t e)

/-- **Everything in the log** was logged by a call for a host and a prefix that the process has heard of. -/
theorem log_explained {η : Type} {v : DnsUpdater (Logged σ η)} {P : Call String Ipv6Addr → List η → Prop}
    (hl : u.client.LoggedBy v.client P) {w : σ} {es : List TaskEvent}
    (hr : run (observed (servedStep cfg u) (HeardOf.note cfg)) (.init w, .nothing) es = some (t, n)) :
    ∃ log, run (servedStep cfg v) (.init ⟨w, []⟩) es = some ⟨t.task, ⟨t.world, log⟩⟩ ∧
      ∀ x ∈ log, ∃ c xs, n.Explains cfg c ∧ P c xs ∧ x ∈ xs ∧ xs ⊆ log := by
  obtain ⟨calls, hboth, hcalls⟩ : ∃ calls, run (observed (servedStep cfg u) (bothNotes (HeardOf.note cfg) noteCall))
      (.init w, (.nothing, [])) es = some (t, (n, calls)) ∧
      run (observed (servedStep cfg u) noteCall) (.init w, []) es = some (t, calls) := run_bothNotes [] hr
  obtain ⟨logs, hlogs, hlog⟩ := wire_log hl hcalls
  refine ⟨logs.flatten, hlog, fun x hx => ?_⟩
  obtain ⟨xs, hxs, hx⟩ := List.mem_flatten.1 hx
  obtain ⟨c, hc, hcall⟩ := exists_of_forall₂ hlogs hxs
  exact ⟨c, xs, calls_explained hboth c hc, hcall, hx, fun y hy => List.mem_flatten.2 ⟨xs, hxs, hy⟩⟩

end Calls

/-! ## A startup -/

/-- The startup, with a cycle that finds the prefix `2001:db8:1:2::`. -/
def sampleStart : List TaskEvent :=
  [.main .spawnListener, .main .newReturns, .main (.seedHosts none), .main (.seedRecord (.ok none)),
    .main .startupCycle, .main .callDetect,
    .main (.detectReturns
      ⟨.error "", .ok (.ok [⟨true, some (.v6 ⟨0x2001, 0xdb8, 1, 2, 0, 0, 0, 7⟩), false, true, none⟩])⟩),
    .main (.discovered none), .main (.host (.ok ())), .main .endCycle]

/-- The query and the call at startup. -/
def sampleStartCalls : List (Call String Ipv6Addr) :=
  [.read "nas.example.com", .write "nas.example.com" ⟨0x2001, 0xdb8, 1, 2, 0, 0, 0, 1⟩]

set_option maxRecDepth 4000 in
/-- The query at startup is tried twice. -/
theorem cloudflare_wire_limited : ∃ t, run (observed (servedStep netlinkSetup
      ((sampleApi.updater "token").toDnsUpdater sampleApi.http)) noteCall)
      (.init ⟨emptyZone, [rateLimited sampleApi]⟩, []) sampleStart = some (t, sampleStartCalls) ∧
    ∃ logs, List.Forall₂ (CfCallLog (sampleApi.updater "token")) sampleStartCalls logs ∧
      run (servedStep netlinkSetup ((sampleApi.updater "token").toDnsUpdater sampleApi.http.logged))
        (.init ⟨⟨emptyZone, [rateLimited sampleApi]⟩, []⟩) sampleStart = some ⟨t.task, ⟨t.world, logs.flatten⟩⟩ :=
  ⟨_, rfl, cloudflare_wire netlinkSetup (sampleApi.updater "token") sampleApi.http
    ⟨emptyZone, [rateLimited sampleApi]⟩ (show run _ _ sampleStart = some (_, sampleStartCalls) from rfl)⟩

/-- The record is updated at startup. -/
theorem rfc2136_wire_nas : ∃ t, run (observed (servedStep netlinkSetup nameServerUpdater.toDnsUpdater) noteCall)
      (.init ⟨fun _ => [], []⟩, []) sampleStart = some (t, sampleStartCalls) ∧
    ∃ logs, List.Forall₂ DnsCallLog sampleStartCalls logs ∧
      run (servedStep netlinkSetup nameServerUpdater.logged.toDnsUpdater)
        (.init ⟨⟨fun _ => [], []⟩, []⟩) sampleStart = some ⟨t.task, ⟨t.world, logs.flatten⟩⟩ :=
  ⟨_, rfl, rfc2136_wire netlinkSetup nameServerUpdater ⟨fun _ => [], []⟩
    (show run _ _ sampleStart = some (_, sampleStartCalls) from rfl)⟩

end DdnsIpv6

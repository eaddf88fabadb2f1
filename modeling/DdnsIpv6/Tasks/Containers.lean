import DdnsIpv6.Docker.Discovery
import DdnsIpv6.Tasks.Delivery

/-!
# From the labels of containers to the server

Every cycle that has a prefix asks the Docker daemon for its containers. The last cycle ran for what the daemon answered
when it was asked last (`discovered_step`), so when the process is at rest and the calls of this cycle have succeeded,
every container that was listed in the answer with the label and a global address has its record on the server: the
prefix of the last advertisement, and the lower half of the container's address (`containers_delivered`).
-/

namespace DdnsIpv6

open Lib Lib.WriteThrough Prefix

variable {σ : Type}

/-! ## The daemon that is asked -/

/-- A step discovers the hosts of a cycle. -/
def TaskEvent.discovers : TaskEvent → Bool
  | .main (.discovered _) => true
  | _ => false

/-- An event of a process with Docker: the discovery of a cycle asks the daemon, whose answers come with the event. -/
inductive DockerEvent where
  | discovered (api : DockerApi)
  | other (e : TaskEvent) (h : e.discovers = false)

/-- What the step does. -/
def DockerEvent.task : DockerEvent → TaskEvent
  | .discovered api => .main (.discovered (some (discover api)))
  | .other e _ => e

/-- The answers of the daemon, if it is asked. -/
def DockerEvent.api : DockerEvent → Option DockerApi
  | .discovered api => some api
  | .other _ _ => none

/-- The daemon as it was asked last. -/
def lastAsked (es : List DockerEvent) : Option DockerApi := (es.filterMap DockerEvent.api).getLast?

/-- The note on the last discovery. -/
def noteDiscovered (m : Option (Option (List HostEntry))) : TaskEvent → Option (Option (List HostEntry))
  | .main (.discovered hosts) => some hosts
  | _ => m

theorem noteDiscovered_of_not {m : Option (Option (List HostEntry))} {e : TaskEvent} (h : e.discovers = false) :
    noteDiscovered m e = m := by
  unfold noteDiscovered
  split
  · cases h
  · rfl

/-- The last discovery is what the daemon answered when it was asked last. -/
theorem foldl_noteDiscovered (es : List DockerEvent) : (es.map DockerEvent.task).foldl noteDiscovered none =
    (lastAsked es).map fun api => some (discover api) := by
  induction es using List.reverseRecOn with
  | nil => rfl
  | append_singleton es e ih =>
    rw [List.map_append, List.foldl_append, ih, lastAsked, lastAsked, List.filterMap_append]
    cases e with
    | discovered api => simp [DockerEvent.task, DockerEvent.api, noteDiscovered]
    | other e h => simp [DockerEvent.task, DockerEvent.api, noteDiscovered_of_not h]

/-! ## What the cycles discover -/

/-- In a cycle, after its discovery. -/
def MainPc.isUpdating : MainPc → Bool
  | .cycle _ (.updating _ _) => true
  | _ => false

/-- The cycle in progress runs for the hosts that were discovered last. Without such a cycle, the last one ran for them,
if it had a prefix. -/
structure CyclesDiscover (cfg : Setup) (u : DnsUpdater σ) (w : σ) (s : TaskState) (h : History)
    (m : Option (Option (List HostEntry))) : Prop where
  current : s.pc.isUpdating = true → m = some h.hosts
  last : s.pc.isUpdating = false → s.pc ≠ .killed → ∀ a c p, run (sourceStep cfg.method u) (h.start u w) h.events =
    some a → a.cycles.head? = some c → c.detected = .ok p →
      ∃ hosts, m = some hosts ∧ c.hosts = allSuffixes cfg.staticSuffixes (hosts.getD [])

section Steps

variable {cfg : Setup} {u : DnsUpdater σ} {w : σ} {s t : Served σ} {h h' : History}
  {m : Option (Option (List HostEntry))} {received : List (List UInt8)} {a b : SourceState σ}

theorem cyclesDiscover_init : CyclesDiscover cfg u w .init .empty m where
  current hpc := by cases hpc
  last _ _ a c p hr hc := by
    cases hr
    cases hc

/-- Packets are no cycles. -/
theorem cycles_of_packets {events : List SourceEvent} {packets : List (List UInt8)}
    (hr : run (sourceStep cfg.method u) a (events ++ packets.map .packet) = some b) :
    ∃ m, run (sourceStep cfg.method u) a events = some m ∧ b.cycles = m.cycles := by
  obtain ⟨m, hm, hp⟩ := run_split hr
  rw [run_packets] at hp
  cases hp
  exact ⟨m, hm, rfl⟩

/-- Steps that neither discover hosts nor end a cycle; packets may be received. -/
theorem CyclesDiscover.quiet (hi : CyclesDiscover cfg u w s.task h m)
    (hpc : t.task.pc.isUpdating = s.task.pc.isUpdating ∨ t.task.pc = .killed) (hlive : s.task.pc ≠ .killed)
    (hhosts : h'.hosts = h.hosts) (hseeds : h'.seeds = h.seeds) (packets : List (List UInt8))
    (hevents : h'.events = h.events ++ packets.map .packet) : CyclesDiscover cfg u w t.task h' m where
  current ht := by
    rcases hpc with hpc | hpc
    · rw [hhosts]
      exact hi.current (hpc ▸ ht)
    · rw [hpc] at ht
      cases ht
  last ht hk b c p hr hc hp := by
    rw [History.start, hseeds, hevents] at hr
    obtain ⟨m, hm, hcycles⟩ := cycles_of_packets hr
    rw [hcycles] at hc
    exact hi.last ((hpc.resolve_right hk) ▸ ht) hlive m c p hm hc hp

/-- A cycle ends that has failed, or for which hosts were discovered. -/
theorem discovered_endCycle {startup : Bool} {at_ : CyclePc} {c : CycleRecord σ} {p : Ipv6Addr}
    (hi : CyclesDiscover cfg u w s.task h m) (hx : h.Explains cfg u w received s.daemon (.cycle startup at_))
    (hpc : s.task.pc = .cycle startup at_) (hat : at_ = .failed ∨ ∃ p, at_ = .updating p [])
    (hr : run (sourceStep cfg.method u) (h.start u w) (h.endCycle cfg.staticSuffixes).events = some b)
    (hc : b.cycles.head? = some c) (hp : c.detected = .ok p) :
    ∃ hosts, m = some hosts ∧ c.hosts = allSuffixes cfg.staticSuffixes (hosts.getD []) := by
  have hevents : (h.endCycle cfg.staticSuffixes).events =
      (h.events ++ [.cycle h.answers cfg.staticSuffixes h.hosts]) ++ h.held.map .packet := List.append_cons _ _ _
  rw [hevents] at hr
  obtain ⟨b', hb, hcycles⟩ := cycles_of_packets hr
  obtain ⟨a, ha, hlast⟩ := run_split hb
  cases hlast
  rw [hcycles] at hc
  cases hc
  rcases hat with rfl | ⟨q, rfl⟩
  · -- its `detect()` has failed in the sequential run, too
    obtain ⟨⟨cycles, hrun, -⟩, e, hd⟩ := hx
    cases hrun.symm.trans ha
    cases hp.symm.trans hd
  · exact ⟨h.hosts, hi.current (by rw [hpc]; rfl), rfl⟩

/-- A step of the main task. -/
theorem discovered_main {e : MainEvent} (hi : CyclesDiscover cfg u w s.task h m) (hx : Explained cfg u w s h received)
    (hlive : s.task.pc ≠ .killed) (he : mainStep cfg s.task e = some t.task) :
    CyclesDiscover cfg u w t.task (h.note cfg s (.main e) t) (noteDiscovered m (.main e)) := by
  have hmain := hx.live hlive
  obtain ⟨task, world⟩ := t
  simp only at he
  cases mainStep_cases he with
  | seedHosts discovered hpc =>
    -- no cycle has begun
    rw [hpc] at hmain
    obtain ⟨hu, -, -⟩ := hmain
    refine ⟨fun hup => (by cases hup), fun _ _ a c p hr hc => ?_⟩
    have hnone : a.cycles = [] := by
      rw [show (h.note cfg s (.main (.seedHosts discovered)) ⟨_, world⟩).events = [] ++ received.map .packet from
        hu.events] at hr
      obtain ⟨m, hm, hcycles⟩ := cycles_of_packets hr
      cases hm
      exact hcycles
    rw [hnone] at hc
    cases hc
  | detectReturns answers startup c hpc ok error =>
    refine ⟨fun hup => ?_, fun _ _ => hi.last (by rw [hpc]; rfl) hlive⟩
    cases hdet : detect cfg.method (s.task.listener.bind Listener.last) answers with
    | ok p =>
      rw [ok p hdet] at hup
      cases hup
    | error e =>
      rw [error e hdet] at hup
      cases hup
  | discovered hosts startup p hpc => exact ⟨fun _ => rfl, fun hup => by cases hup⟩
  | endCycle startup at_ hpc hat =>
    rw [hpc] at hmain
    refine ⟨fun hup => ?_, fun _ _ b c p hr hc hp => discovered_endCycle hi hmain hpc hat hr hc hp⟩
    cases startup <;> cases hup
  | host outcome startup p suffix domain todo hpc =>
    exact hi.quiet (Or.inl (by rw [hpc]; rfl)) hlive rfl rfl [] (List.append_nil _).symm
  | spawnListener hpc | newReturns hpc | seedRecord answer e todo hpc | startupCycle hpc | callDetect startup hpc
  | spawnSignalTasks hpc | subscribe hpc | changed r r' hpc hr hc | notified hpc hp | cancelled hpc hc =>
    exact hi.quiet (Or.inl (by rw [hpc]; rfl)) hlive rfl rfl [] (List.append_nil _).symm

/-- A packet is noted down, at once or after the cycle in progress. -/
theorem History.packet_quiet (h : History) (pc : MainPc) (data : List UInt8) :
    (h.packet pc data).hosts = h.hosts ∧ (h.packet pc data).seeds = h.seeds ∧
      ∃ packets : List (List UInt8), (h.packet pc data).events = h.events ++ packets.map .packet := by
  rw [History.packet]
  split
  · exact ⟨rfl, rfl, [], (List.append_nil _).symm⟩
  · exact ⟨rfl, rfl, [data], rfl⟩

/-- **Every step** goes on with the hosts that were discovered last. -/
theorem discovered_step {e : TaskEvent} (hi : CyclesDiscover cfg u w s.task h m) (hx : Explained cfg u w s h received)
    (he : servedStep cfg u s e = some t) :
    CyclesDiscover cfg u w t.task (h.note cfg s e t) (noteDiscovered m e) := by
  obtain ⟨htask, -⟩ := taskStep_of_servedStep he
  obtain ⟨hlive, ⟨e, rfl, hm⟩ | ⟨l, rfl, hl⟩ | ⟨g, rfl, hg⟩⟩ := taskStep_cases htask
  · exact discovered_main hi hx hlive hm
  · obtain ⟨hpc, -⟩ := listenerStep_frame hl
    have hup : t.task.pc.isUpdating = s.task.pc.isUpdating ∨ t.task.pc = .killed := Or.inl (by rw [hpc])
    cases l with
    | packet data =>
      obtain ⟨hhosts, hseeds, packets, hevents⟩ := h.packet_quiet s.task.pc data
      exact hi.quiet hup hlive hhosts hseeds packets hevents
    | pollBegin | pollEnd | address | send => exact hi.quiet hup hlive rfl rfl [] (List.append_nil _).symm
  · obtain ⟨-, -, -, -, -, hpc⟩ := signalStep_frame hg
    exact hi.quiet (hpc.imp_left fun hpc => by rw [hpc]) hlive rfl rfl [] (List.append_nil _).symm

/-- The cycles of a process with Docker run for what the daemon answered when it was asked last. -/
theorem run_discovered {es : List DockerEvent}
    (hr : run (recorded cfg u) (.init w, .empty) (es.map DockerEvent.task) = some (t, h)) :
    CyclesDiscover cfg u w t.task h ((lastAsked es).map fun api => some (discover api)) := by
  obtain ⟨m, hboth, hnote⟩ : ∃ m,
      run (observed (servedStep cfg u) (bothNotes (History.note cfg) fun _ e _ m => noteDiscovered m e))
        (.init w, (.empty, none)) (es.map DockerEvent.task) = some (t, (h, m)) ∧
      run (observed (servedStep cfg u) fun _ e _ m => noteDiscovered m e) (.init w, none) (es.map DockerEvent.task) =
        some (t, m) := run_bothNotes none hr
  obtain rfl : m = _ := (notes_eq_foldl hnote).trans (foldl_noteDiscovered es)
  refine (observed_inv (I := fun s (n : History × Option (Option (List HostEntry))) =>
    (∃ received, Explained cfg u w s n.1 received) ∧ CyclesDiscover cfg u w s.task n.1 n.2)
    (fun s n e t hi he => ?_) ⟨⟨[], explained_init⟩, cyclesDiscover_init⟩ hboth).2
  obtain ⟨received, hx⟩ := hi.1
  exact ⟨explained_step hi.1 he, discovered_step hi.2 hx he⟩

end Steps

/-! ## Containers -/

/-- The container has the label and an address, so that it is to have a record for the domain. -/
def ContainerSummary.Claims (c : ContainerSummary) (api : DockerApi) (domain : String) : Prop :=
  ∃ id a, c.Labeled id domain ∧ api.HasAddress id a

/-- Every container that claims a domain, which no later one claims, has its record: the prefix, and the lower half of
one of its addresses. -/
def ContainersPublished (api : DockerApi) (p : Ipv6Addr) (containers : List ContainerSummary)
    (records : Cache String Ipv6Addr) : Prop :=
  ∀ before c after domain, containers = before ++ c :: after → domain ≠ "" → c.Claims api domain →
    (∀ c' ∈ after, ¬c'.Claims api domain) →
    ∃ id a addr, c.Labeled id domain ∧ api.HasAddress id a ∧ records domain = some addr ∧
      addr.upper64 = p.upper64 ∧ addr.lower64 = a.lower64

section Containers

variable {api : DockerApi} {p : Ipv6Addr} {containers : List ContainerSummary} {records : Cache String Ipv6Addr}
  {c : ContainerSummary} {domain : String} {staticSuffixes : List (Ipv6Addr × String)}

/-- The host of a container that claims a domain is one of this domain. -/
theorem ContainerSummary.Claims.host (hc : c.Claims api domain) (hne : domain ≠ "") :
    ∃ host, hostEntry api c = some host ∧ host.domain = domain := by
  obtain ⟨id, a, hl, ha⟩ := hc
  obtain ⟨host, hhost⟩ := Option.isSome_iff_exists.1 (hostEntry_isSome_iff.2 ⟨id, domain, a, hl, hne, ha⟩)
  obtain ⟨id', -, hl', -⟩ := announces_of_hostEntry hhost
  have hpair := (labeledContainer_eq_some_iff.2 hl').symm.trans (labeledContainer_eq_some_iff.2 hl)
  exact ⟨host, hhost, (Prod.ext_iff.1 (Option.some.inj hpair)).2⟩

/-- Where every last host of a domain has its address, the containers have theirs. -/
theorem containersPublished_of_hosts
    (hlist : api.listContainers ⟨true, [("label", [ddnsDomainLabel])]⟩ = .ok containers)
    (hrecords : ∀ before e after, allSuffixes staticSuffixes (discover api) = before ++ e :: after →
      e.2 ∉ after.map Prod.snd → records e.2 = some (combine p e.1)) :
    ContainersPublished api p containers records := by
  rintro before c after domain rfl hne hc hlater
  obtain ⟨host, hhost, rfl⟩ := hc.host hne
  obtain ⟨id, a, hl, ha, -, hlower⟩ := announces_of_hostEntry hhost
  have hsplit : discover api = before.filterMap (hostEntry api) ++ host :: after.filterMap (hostEntry api) := by
    rw [discover_eq hlist, List.filterMap_append, List.filterMap_cons_some hhost]
  refine ⟨id, a, combine p host.suffix, hl, ha, ?_, combine_upper64 p host.suffix, ?_⟩
  · have hall : allSuffixes staticSuffixes (discover api) =
        (staticSuffixes ++ (before.filterMap (hostEntry api)).map fun h => (h.suffix, h.domain)) ++
          (host.suffix, host.domain) :: (after.filterMap (hostEntry api)).map fun h => (h.suffix, h.domain) := by
      rw [allSuffixes, hsplit, List.map_append, List.append_assoc]
      rfl
    refine hrecords _ _ _ hall fun hmem => ?_
    -- a later host of the domain comes from a later container that claims it
    obtain ⟨e, he, hdomain⟩ := List.mem_map.1 hmem
    obtain ⟨h', hh', rfl⟩ := List.mem_map.1 he
    obtain ⟨c', hc', hhost'⟩ := List.mem_filterMap.1 hh'
    obtain ⟨id', a', hl', ha', -⟩ := announces_of_hostEntry hhost'
    have hsame : h'.domain = host.domain := hdomain
    exact hlater c' hc' ⟨id', a', hsame ▸ hl', ha'⟩
  · rw [combine_lower64, hlower]

end Containers

/-- **From the labels of containers to the server**: at rest, in every interleaving as in `quiet_delivered` of a process
with Docker, the last cycle has acted on the last advertisement. If it has a prefix, then it ran for what the daemon
answered when it was asked last, and if none of its calls failed then every container that was listed in that answer,
and claims a domain, has its record on the server. -/
theorem containers_delivered {cfg : Setup} {u : LossyUpdater σ} {v : DnsUpdater σ} {D : String → Prop}
    (hs : ServesAs u v D) {interface : String} (hra : cfg.method = .ra interface) {w : σ} {es : List DockerEvent}
    {t : Served σ} {h : History}
    (hr : run (recorded cfg v) (.init w, .empty) (es.map DockerEvent.task) = some (t, h))
    (hw : Along (servedStep cfg v) (fun s e => NoSendInWindow s.task e) (.init w) (es.map DockerEvent.task))
    (hf : Along (servedStep cfg v) (FairCall u D) (.init w) (es.map DockerEvent.task)) (hq : t.task.Quiet) :
    ∃ a c, run (sourceStep cfg.method v) (h.start v w) h.events = some a ∧ a.cycles.head? = some c ∧
      c.detected = Ra.detect (lastPrefix h.heard) ∧
      ∀ p, c.detected = .ok p → ∃ api, lastAsked es = some api ∧
        c.hosts = allSuffixes cfg.staticSuffixes (discover api) ∧
        ((∀ x ∈ c.result.visits, x.report.answer ≠ some false) →
          ∀ containers, api.listContainers ⟨true, [("label", [ddnsDomainLabel])]⟩ = .ok containers →
            ContainersPublished api p containers (u.records t.world)) := by
  obtain ⟨a, c, hrun, hlast, hu⟩ := quiet_delivered hs hra hr hw hf hq
  refine ⟨a, c, hrun, hlast, hu.detected, fun p hp => ?_⟩
  have hpc : t.task.pc = .parked := hq.parked
  obtain ⟨hosts, hasked, hhosts⟩ :=
    (run_discovered hr).last (by rw [hpc]; rfl) (by rw [hpc]; rintro ⟨⟩) a c p hrun hlast hp
  obtain ⟨api, hapi, rfl⟩ := Option.map_eq_some_iff.1 hasked
  refine ⟨api, hapi, hhosts, fun hok containers hlist => ?_⟩
  have hrecords : ∀ before e after, allSuffixes cfg.staticSuffixes (discover api) = before ++ e :: after →
      e.2 ∉ after.map Prod.snd → u.records t.world e.2 = some (combine p e.1) := fun before e after hsplit =>
    hu.cached p hp hok before e after (hhosts.trans hsplit)
  exact containersPublished_of_hosts hlist hrecords

/-- The startup with a packet, and a cycle that discovers two containers; the domain of one is that of a static host. -/
def sampleDiscovery : List DockerEvent :=
  [.other (.main .spawnListener) rfl, .other (.listener (.packet samplePacket)) rfl, .other (.listener .send) rfl,
    .other (.main .newReturns) rfl, .other (.main (.seedHosts none)) rfl, .other (.main (.seedRecord (.ok none))) rfl,
    .other (.main .startupCycle) rfl, .other (.main .callDetect) rfl,
    .other (.main (.detectReturns ⟨.error "", .error ""⟩)) rfl, .discovered mixedDaemon,
    .other (.main (.host (.ok ()))) rfl, .other (.main (.host (.ok ()))) rfl, .other (.main (.host (.ok ()))) rfl,
    .other (.main .endCycle) rfl, .other (.main .spawnSignalTasks) rfl, .other (.main .subscribe) rfl]

/-- The container has its record. -/
theorem containers_delivered_mixed : ∃ t h,
    run (recorded sampleSetup nameServerUpdater.toDnsUpdater) (.init ⟨fun _ => [], []⟩, .empty)
      (sampleDiscovery.map DockerEvent.task) = some (t, h) ∧
    lastAsked sampleDiscovery = some mixedDaemon ∧
    t.world.state "git.example.com" = [⟨0x2001, 0xdb8, 1, 2, 0, 0, 0, 4⟩] ∧
    ∃ a c, run (sourceStep sampleSetup.method nameServerUpdater.toDnsUpdater)
      (h.start nameServerUpdater.toDnsUpdater ⟨fun _ => [], []⟩) h.events = some a ∧ a.cycles.head? = some c ∧
      c.detected = Ra.detect (lastPrefix h.heard) ∧
      ∀ p, c.detected = .ok p → ∃ api, lastAsked sampleDiscovery = some api ∧
        c.hosts = allSuffixes sampleSetup.staticSuffixes (discover api) ∧
        ((∀ x ∈ c.result.visits, x.report.answer ≠ some false) →
          ∀ containers, api.listContainers ⟨true, [("label", [ddnsDomainLabel])]⟩ = .ok containers →
            ContainersPublished api p containers (nameServerLossy.records t.world)) :=
  ⟨_, _, rfl, rfl, by decide, containers_delivered rfc2136_servesAs rfl
    (show run _ _ (sampleDiscovery.map DockerEvent.task) = _ from rfl) (by decide)
    (Along.imp (fun _ _ => SuccessfulCall.fair) (by decide)) ⟨rfl, by decide, by decide⟩⟩

end DdnsIpv6

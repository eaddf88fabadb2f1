import DdnsIpv6.Publish
import DdnsIpv6.Tasks.Served

/-!
# The process as a sequence of cycles

The tasks of the process interleave, but what they do is what a daemon does that receives packets and runs whole update
cycles one after the other (`sourceStep`). An observer writes that sequential history down (`History`): a cycle counts
as one event at its end, and a packet that is received after its `detect()` has returned counts as received after the
cycle. The sequential daemon that lives through the history, with the same updater, has the cache of the process, makes
its calls and leaves the same world (`process_refines`).
-/

namespace DdnsIpv6

open Lib Lib.WriteThrough Prefix

variable {σ : Type}

/-! ## The observer -/

/-- The history of a process, as a sequential daemon would live through it. -/
structure History where
  /-- The hosts that the cache is seeded for. -/
  seeds : List (Ipv6Addr × String)
  /-- The calls of `set_record`, those of skipped hosts left out. -/
  made : List (String × Ipv6Addr)
  /-- The cycles that have ended, and the packets. -/
  events : List SourceEvent
  /-- Of the cycle in progress: what its `detect()` was told, and the discovered hosts. -/
  answers : Answers
  hosts : Option (List HostEntry)
  /-- The packets that were received since its `detect()` has returned. -/
  held : List (List UInt8)
  /-- All packets, as they were received. -/
  heard : List (List UInt8)

def History.empty : History := ⟨[], [], [], ⟨.error "", .error ""⟩, none, [], []⟩

/-- In a cycle, after the return of its `detect()`. -/
def MainPc.hasDetected : MainPc → Bool
  | .cycle _ (.discovering _) | .cycle _ (.updating _ _) | .cycle _ .failed => true
  | _ => false

/-- The cycle in progress is over, and the packets that were held back are received. -/
def History.endCycle (h : History) (staticSuffixes : List (Ipv6Addr × String)) : History :=
  { h with events := h.events ++ .cycle h.answers staticSuffixes h.hosts :: h.held.map .packet, held := [] }

/-- A packet that is received between two cycles, or held back in one. -/
def History.packet (h : History) (pc : MainPc) (data : List UInt8) : History :=
  if pc.hasDetected then { h with held := h.held ++ [data], heard := h.heard ++ [data] }
  else { h with events := h.events ++ [.packet data], heard := h.heard ++ [data] }

/-- What the observer writes down when the process takes a step from `s`. -/
def History.note (cfg : Setup) (s : Served σ) (e : TaskEvent) (_ : Served σ) (h : History) : History :=
  match e with
  | .main (.seedHosts discovered) => { h with seeds := allSuffixes cfg.staticSuffixes (discovered.getD []) }
  | .main (.detectReturns answers) => { h with answers := answers, hosts := none }
  | .main (.discovered hosts) => { h with hosts := hosts }
  | .main (.host _) => { h with made := h.made ++ s.task.nextCall.toList }
  | .main .endCycle => h.endCycle cfg.staticSuffixes
  | .listener (.packet data) => h.packet s.task.pc data
  | _ => h

/-- The process with its updater, and the observer. -/
def recorded (cfg : Setup) (u : DnsUpdater σ) : Served σ × History → TaskEvent → Option (Served σ × History) :=
  observed (servedStep cfg u) (History.note cfg)

/-! ## The sequential run -/

/-- The sequential daemon at process start, with its cache seeded. -/
def History.start (h : History) (u : DnsUpdater σ) (w : σ) : SourceState σ :=
  ⟨[], seedCache u h.seeds ⟨fun _ => none, w⟩, []⟩

/-- The calls of the cycles of a sequential run, in order; the last cycle comes first in the list. -/
def cycleCalls (cycles : List (CycleRecord σ)) : List (String × Ipv6Addr) :=
  cycles.reverse.flatMap fun c => calls c.result.visits

/-- The sequential daemon that has lived through the history has received `received` and is in the state `d`. The last
calls, `recent`, belong to a cycle in progress. -/
def History.Replays (cfg : Setup) (u : DnsUpdater σ) (w : σ) (h : History) (received : List (List UInt8))
    (d : Daemon σ) (recent : List (String × Ipv6Addr)) : Prop :=
  ∃ cycles, run (sourceStep cfg.method u) (h.start u w) h.events = some ⟨received, d, cycles⟩ ∧
    cycleCalls cycles ++ recent = h.made

/-- No cycle has begun. -/
structure History.Unstarted (h : History) (received : List (List UInt8)) : Prop where
  events : h.events = received.map .packet
  made : h.made = []
  held : h.held = []

/-- How the history explains that the main task stands at a place, with the cache and the world that it has: the
sequential daemon has received `received`, and what a cycle in progress has done since is a part of its next cycle. -/
def History.Explains (cfg : Setup) (u : DnsUpdater σ) (w : σ) (h : History) (received : List (List UInt8))
    (d : Daemon σ) : MainPc → Prop
  | .start | .building | .built => h.Unstarted received ∧ h.seeds = [] ∧ d = ⟨fun _ => none, w⟩
  | .seeding todo =>
    h.Unstarted received ∧ ∃ done, h.seeds = done ++ todo ∧ seedCache u done ⟨fun _ => none, w⟩ = d
  | .cycle _ .called | .cycle _ .detecting | .settingUp | .subscribing | .parked | .stopped =>
    h.held = [] ∧ h.Replays cfg u w received d []
  | .cycle _ .failed =>
    h.Replays cfg u w received d [] ∧ ∃ e, detect cfg.method (lastPrefix received) h.answers = .error e
  | .cycle _ (.discovering p) =>
    h.Replays cfg u w received d [] ∧ detect cfg.method (lastPrefix received) h.answers = .ok p
  | .cycle _ (.updating p todo) =>
    detect cfg.method (lastPrefix received) h.answers = .ok p ∧
    ∃ done before, h.Replays cfg u w received before (calls (pass u.setRecord (targets p done) before).1) ∧
      allSuffixes cfg.staticSuffixes (h.hosts.getD []) = done ++ todo ∧
      (pass u.setRecord (targets p done) before).2 = d
  | .killed => False

/-- What the steps keep: the history explains where the main task stands, or stood when it was killed, and the listener
remembers the last prefix of all packets of the history. -/
structure Explained (cfg : Setup) (u : DnsUpdater σ) (w : σ) (s : Served σ) (h : History)
    (received : List (List UInt8)) : Prop where
  main : ∃ pc, (s.task.pc = pc ∨ s.task.pc = .killed) ∧ h.Explains cfg u w received s.daemon pc
  unspawned : s.task.pc = .start → s.task.listener = none
  heard : received ++ h.held = h.heard
  last : ∀ interface, cfg.method = .ra interface → s.task.listener.bind Listener.last = lastPrefix h.heard

/-! ## Steps of the sequential run -/

section Steps

variable {cfg : Setup} {u : DnsUpdater σ} {w : σ} {s t : Served σ} {h h' : History} {received : List (List UInt8)}
  {d after : Daemon σ} {recent : List (String × Ipv6Addr)}

/-- Packets, one after the other. -/
theorem run_packets (method : PrefixConfig) (u : DnsUpdater σ) : ∀ (packets : List (List UInt8))
    (a : SourceState σ), run (sourceStep method u) a (packets.map .packet) =
      some { a with received := a.received ++ packets }
  | [], a => by
    rw [List.append_nil]
    rfl
  | data :: packets, a => by
    rw [List.map_cons, run, sourceStep, Option.bind_some, run_packets method u packets, List.append_assoc]
    rfl

theorem cycleCalls_cons (c : CycleRecord σ) (cycles : List (CycleRecord σ)) :
    cycleCalls (c :: cycles) = cycleCalls cycles ++ calls c.result.visits := by
  rw [cycleCalls, List.reverse_cons, List.flatMap_append, List.flatMap_singleton]
  rfl

/-- Seeding for some hosts, and then for others. -/
theorem seedCache_append (u : DnsUpdater σ) : ∀ (es fs : List (Ipv6Addr × String)) (d : Daemon σ),
    seedCache u (es ++ fs) d = seedCache u fs (seedCache u es d)
  | [], _, _ => rfl
  | (_, domain) :: es, fs, d => by
    rw [List.cons_append, seedCache, seedCache]
    rcases u.getRecord domain d.store with ⟨_ | _ | addr, w⟩ <;> exact seedCache_append u es fs _

/-- Notes that leave the sequential run alone. -/
theorem History.Replays.congr (hr : h.Replays cfg u w received d recent) (hevents : h'.events = h.events)
    (hseeds : h'.seeds = h.seeds) (hmade : h'.made = h.made) : h'.Replays cfg u w received d recent := by
  rw [Replays, History.start, hevents, hseeds, hmade]
  exact hr

/-- Packets that are received between two cycles. -/
theorem History.Replays.packets (hr : h.Replays cfg u w received d []) (packets : List (List UInt8))
    (hevents : h'.events = h.events ++ packets.map .packet) (hseeds : h'.seeds = h.seeds) (hmade : h'.made = h.made) :
    h'.Replays cfg u w (received ++ packets) d [] := by
  obtain ⟨cycles, hrun, hcalls⟩ := hr
  refine ⟨cycles, ?_, hcalls.trans hmade.symm⟩
  rw [History.start, hseeds, hevents]
  exact run_append hrun (run_packets cfg.method u packets _)

/-- The cycle in progress ends. -/
theorem History.Replays.cycle (hr : h.Replays cfg u w received d recent)
    (hstate : (runUpdateCycle u (detect cfg.method (lastPrefix received) h.answers) cfg.staticSuffixes h.hosts
      d).state = after)
    (hrecent : calls (runUpdateCycle u (detect cfg.method (lastPrefix received) h.answers) cfg.staticSuffixes h.hosts
      d).visits = recent)
    (hevents : h'.events = h.events ++ [.cycle h.answers cfg.staticSuffixes h.hosts]) (hseeds : h'.seeds = h.seeds)
    (hmade : h'.made = h.made) : h'.Replays cfg u w received after [] := by
  obtain ⟨cycles, hrun, hcalls⟩ := hr
  refine ⟨⟨received, h.answers, detect cfg.method (lastPrefix received) h.answers,
    allSuffixes cfg.staticSuffixes (h.hosts.getD []), runUpdateCycle u
      (detect cfg.method (lastPrefix received) h.answers) cfg.staticSuffixes h.hosts d⟩ :: cycles, ?_, ?_⟩
  · rw [History.start, hseeds, hevents, ← hstate]
    exact run_append hrun rfl
  · rw [cycleCalls_cons, List.append_nil, hrecent, hcalls, hmade]

/-- The first cycle begins. -/
theorem History.Unstarted.replays (hu : h.Unstarted received) (hseeds : seedCache u h.seeds ⟨fun _ => none, w⟩ = d) :
    h.Replays cfg u w received d [] := by
  refine ⟨[], ?_, hu.made.symm⟩
  rw [hu.events, History.start, hseeds]
  exact run_packets cfg.method u received _

/-! ## Steps of the process -/

/-- The history explains where a live main task stands. -/
theorem Explained.live (hi : Explained cfg u w s h received) (hlive : s.task.pc ≠ .killed) :
    h.Explains cfg u w received s.daemon s.task.pc := by
  obtain ⟨pc, hpc, hmain⟩ := hi.main
  rw [hpc.resolve_right hlive]
  exact hmain

/-- The main task after a step, if it is not killed. -/
theorem Explained.of_live {pc : MainPc} (hpc : t.task.pc = pc) (hmain : h.Explains cfg u w received t.daemon pc)
    (hstart : t.task.pc ≠ .start) (hheard : received ++ h.held = h.heard)
    (hlast : ∀ interface, cfg.method = .ra interface → t.task.listener.bind Listener.last = lastPrefix h.heard) :
    Explained cfg u w t h received :=
  ⟨⟨pc, Or.inl hpc, hmain⟩, fun hs => absurd hs hstart, hheard, hlast⟩

/-- The detector is told what it would be told in the sequential run. -/
theorem Explained.detect_eq (hi : Explained cfg u w s h received) (hheld : h.held = []) (answers : Answers) :
    detect cfg.method (s.task.listener.bind Listener.last) answers =
      detect cfg.method (lastPrefix received) answers := by
  cases hm : cfg.method with
  | dns referenceDomain => rfl
  | netlink interface => rfl
  | ra interface => rw [hi.last interface hm, ← hi.heard, hheld, List.append_nil]

/-- The next host of a cycle. -/
theorem explains_host {startup : Bool} {p suffix : Ipv6Addr} {domain : String} {todo : List (Ipv6Addr × String)}
    {next : Option (String × Ipv6Addr)}
    (hi : h.Explains cfg u w received d (.cycle startup (.updating p ((suffix, domain) :: todo))))
    (hreport : (next = none ∧ (put u.setRecord domain (combine p suffix) d).1 = .skipped) ∨
      (next = some (domain, combine p suffix) ∧ (put u.setRecord domain (combine p suffix) d).1.isCall = true)) :
    History.Explains cfg u w { h with made := h.made ++ next.toList } received
      (put u.setRecord domain (combine p suffix) d).2 (.cycle startup (.updating p todo)) := by
  obtain ⟨hd, done, before, ⟨cycles, hrun, hcalls⟩, hhosts, rfl⟩ := hi
  have htargets : targets p (done ++ [(suffix, domain)]) = targets p done ++ [(domain, combine p suffix)] :=
    List.map_append
  refine ⟨hd, done ++ [(suffix, domain)], before, ⟨cycles, hrun, ?_⟩, ?_, ?_⟩
  · rw [htargets, pass_concat, calls_append, ← List.append_assoc, hcalls, calls_cons]
    rcases hreport with ⟨rfl, hskipped⟩ | ⟨rfl, hcall⟩
    · rw [hskipped]
      rfl
    · rw [if_pos hcall]
      rfl
  · rw [hhosts, List.append_assoc]
    rfl
  · rw [htargets, pass_concat]

/-- The end of a cycle: the packets that were held back are received after it. -/
theorem explains_endCycle {startup : Bool} {c : CyclePc} (hi : h.Explains cfg u w received d (.cycle startup c))
    (hc : c = .failed ∨ ∃ p, c = .updating p []) :
    (h.endCycle cfg.staticSuffixes).Replays cfg u w (received ++ h.held) d [] := by
  have hcycle : ({ h with events := h.events ++ [SourceEvent.cycle h.answers cfg.staticSuffixes h.hosts] } :
      History).Replays cfg u w received d [] := by
    rcases hc with rfl | ⟨p, rfl⟩
    · obtain ⟨hr, e, hd⟩ := hi
      refine hr.cycle ?_ ?_ rfl rfl rfl <;> rw [hd, runUpdateCycle_error]
      rfl
    · obtain ⟨hd, done, before, hr, hhosts, hpass⟩ := hi
      have htargets : cycleTargets p cfg.staticSuffixes h.hosts = targets p done := by
        rw [cycleTargets, hhosts, List.append_nil]
      refine hr.cycle ?_ ?_ rfl rfl rfl
      · rw [hd, runUpdateCycle_state, htargets, hpass]
      · rw [hd, runUpdateCycle_visits, htargets]
  refine hcycle.packets h.held ?_ rfl rfl
  simp only [History.endCycle, List.append_assoc, List.singleton_append]

/-- The main task leaves the last prefix of the listener as it is. -/
theorem Explained.last_main {m : MainEvent} (hi : Explained cfg u w s h received)
    (hm : mainStep cfg s.task m = some t.task) (interface : String) (hra : cfg.method = .ra interface) :
    t.task.listener.bind Listener.last = lastPrefix h.heard := by
  have hlast := hi.last interface hra
  obtain ⟨-, hl | ⟨hstart, hl⟩⟩ := mainStep_listener hm
  · rwa [hl]
  · rw [hi.unspawned hstart] at hlast
    rw [hl]
    exact hlast

/-- A step of the main task that calls nobody. -/
theorem explained_quiet {m : MainEvent} (hi : Explained cfg u w s h received) (hlive : s.task.pc ≠ .killed)
    (hm : mainStep cfg s.task m = some t.task) (hseed : ∀ answer, m ≠ .seedRecord answer)
    (hhost : ∀ outcome, m ≠ .host outcome) (hdaemon : t.daemon = s.daemon) :
    ∃ received', Explained cfg u w t (h.note cfg s (.main m) t) received' := by
  have hmain := hi.live hlive
  have hlast := hi.last_main hm
  obtain ⟨hstart, -⟩ := mainStep_listener hm
  obtain ⟨task, world⟩ := t
  rw [← hdaemon] at hmain
  simp only at hm
  cases mainStep_cases hm with
  | seedRecord answer => exact absurd rfl (hseed answer)
  | host outcome => exact absurd rfl (hhost outcome)
  | seedHosts discovered hpc =>
    rw [hpc] at hmain
    obtain ⟨hu, hseeds, hd⟩ := hmain
    exact ⟨received, .of_live rfl ⟨⟨hu.events, hu.made, hu.held⟩, [], rfl, hd.symm⟩ hstart hi.heard hlast⟩
  | startupCycle hpc =>
    rw [hpc] at hmain
    obtain ⟨hu, done, hseeds, hd⟩ := hmain
    rw [List.append_nil] at hseeds
    subst hseeds
    exact ⟨received, .of_live rfl ⟨hu.held, hu.replays hd⟩ hstart hi.heard hlast⟩
  | detectReturns answers startup c hpc ok error =>
    rw [hpc] at hmain
    obtain ⟨hheld, hr⟩ := hmain
    have hdetect := hi.detect_eq hheld answers
    refine ⟨received, .of_live rfl ?_ hstart hi.heard hlast⟩
    cases hd : detect cfg.method (s.task.listener.bind Listener.last) answers with
    | ok p =>
      obtain rfl := ok p hd
      exact ⟨hr.congr rfl rfl rfl, hdetect.symm.trans hd⟩
    | error e =>
      obtain rfl := error e hd
      exact ⟨hr.congr rfl rfl rfl, e, hdetect.symm.trans hd⟩
  | discovered hosts startup p hpc =>
    rw [hpc] at hmain
    obtain ⟨⟨cycles, hrun, hcalls⟩, hd⟩ := hmain
    refine ⟨received, .of_live rfl ⟨hd, [], _, ⟨cycles, hrun, hcalls⟩, ?_, rfl⟩ hstart hi.heard hlast⟩
    rw [collectSuffixes_snd]
    rfl
  | endCycle startup c hpc hc =>
    rw [hpc] at hmain
    have hr := explains_endCycle hmain hc
    refine ⟨received ++ h.held, .of_live rfl ?_ hstart ((List.append_nil _).trans hi.heard) hlast⟩
    cases startup with
    | true => exact ⟨rfl, hr⟩
    | false => exact ⟨rfl, hr⟩
  | spawnListener hpc | newReturns hpc | callDetect startup hpc | spawnSignalTasks hpc | subscribe hpc
  | changed r r' hpc hr hc | notified hpc hp | cancelled hpc hc =>
    rw [hpc] at hmain
    exact ⟨received, .of_live rfl hmain hstart hi.heard hlast⟩

/-- A step of the main task. -/
theorem explained_main {m : MainEvent} (hi : Explained cfg u w s h received) (hlive : s.task.pc ≠ .killed)
    (hm : mainStep cfg s.task m = some t.task) (hcase : ServedCase cfg u s t (.main m)) :
    ∃ received', Explained cfg u w t (h.note cfg s (.main m) t) received' := by
  have hmain := hi.live hlive
  have hlast := hi.last_main hm
  obtain ⟨hstart, -⟩ := mainStep_listener hm
  cases hcase with
  | seedRecord answer e todo before after daemon =>
    rw [before] at hmain
    obtain ⟨hu, done, hseeds, hd⟩ := hmain
    refine ⟨received, .of_live after ⟨hu, done ++ [e], ?_, ?_⟩ hstart hi.heard hlast⟩
    · rw [List.append_assoc]
      exact hseeds
    · rw [seedCache_append, hd, daemon]
  | host outcome startup p suffix domain todo before after report daemon =>
    rw [before] at hmain
    have hnext := explains_host hmain report
    rw [← daemon] at hnext
    exact ⟨received, .of_live after hnext hstart hi.heard hlast⟩
  | other _ seedRecord host daemon =>
    exact explained_quiet hi hlive hm (fun answer he => seedRecord answer (congrArg TaskEvent.main he))
      (fun outcome he => host outcome (congrArg TaskEvent.main he)) daemon

/-- Every packet is heard. -/
theorem History.packet_heard (h : History) (pc : MainPc) (data : List UInt8) :
    (h.packet pc data).heard = h.heard ++ [data] := by
  rw [History.packet]
  split <;> rfl

/-- What becomes of a packet. -/
theorem explains_packet {pc : MainPc} (hi : h.Explains cfg u w received d pc) (data : List UInt8) :
    ∃ received', (h.packet pc data).Explains cfg u w received' d pc ∧
      received' ++ (h.packet pc data).held = received ++ h.held ++ [data] := by
  have hlate : pc.hasDetected = true →
      h.packet pc data = { h with held := h.held ++ [data], heard := h.heard ++ [data] } := fun hpc => if_pos hpc
  have hnow : pc.hasDetected = false →
      h.packet pc data = { h with events := h.events ++ [.packet data], heard := h.heard ++ [data] } := fun hpc =>
    if_neg (by rw [hpc]; exact Bool.false_ne_true)
  have hevents : h.events ++ [.packet data] = h.events ++ [data].map SourceEvent.packet := rfl
  have hstart : h.Unstarted received →
      ({ h with events := h.events ++ [.packet data], heard := h.heard ++ [data] } : History).Unstarted
        (received ++ [data]) := fun hu =>
    ⟨by rw [hu.events, List.map_append]; rfl, hu.made, hu.held⟩
  cases pc with
  | start | building | built | seeding todo =>
    obtain ⟨hu, hrest⟩ := hi
    rw [hnow rfl]
    exact ⟨received ++ [data], ⟨hstart hu, hrest⟩, by simp only [hu.held, List.append_nil]⟩
  | cycle startup c =>
    cases c with
    | called | detecting =>
      obtain ⟨hheld, hr⟩ := hi
      rw [hnow rfl]
      exact ⟨received ++ [data], ⟨hheld, hr.packets [data] hevents rfl rfl⟩, by simp only [hheld, List.append_nil]⟩
    | failed | discovering p =>
      obtain ⟨hr, hd⟩ := hi
      rw [hlate rfl]
      exact ⟨received, ⟨hr.congr rfl rfl rfl, hd⟩, (List.append_assoc _ _ _).symm⟩
    | updating p todo =>
      obtain ⟨hd, done, before, hr, hrest⟩ := hi
      rw [hlate rfl]
      exact ⟨received, ⟨hd, done, before, hr.congr rfl rfl rfl, hrest⟩, (List.append_assoc _ _ _).symm⟩
  | settingUp | subscribing | parked | stopped =>
    obtain ⟨hheld, hr⟩ := hi
    rw [hnow rfl]
    exact ⟨received ++ [data], ⟨hheld, hr.packets [data] hevents rfl rfl⟩, by simp only [hheld, List.append_nil]⟩
  | killed => exact hi.elim

/-- One more packet for the RA listener. -/
theorem lastPrefix_concat (packets : List (List UInt8)) (data : List UInt8) :
    lastPrefix (packets ++ [data]) = (Ra.receive data (lastPrefix packets)).1 := by
  rw [lastPrefix, List.foldl_append]
  rfl

/-- A step of the listener. -/
theorem explained_listener {l : ListenerEvent} (hi : Explained cfg u w s h received) (hlive : s.task.pc ≠ .killed)
    (hl : listenerStep cfg s.task l = some t.task) (hdaemon : t.daemon = s.daemon) :
    ∃ received', Explained cfg u w t (h.note cfg s (.listener l) t) received' := by
  obtain ⟨hpc, -⟩ := listenerStep_frame hl
  obtain ⟨ls, hls, hcase⟩ := listenerStep_cases hl
  have hmain := hi.live hlive
  have hstarted : t.task.pc ≠ .start := fun hs => by
    have hnone := hi.unspawned (hpc.symm.trans hs)
    rw [hls] at hnone
    cases hnone
  have hlast := hi.last
  rw [hls] at hlast
  rw [← hdaemon] at hmain
  obtain ⟨task, world⟩ := t
  cases hcase with
  | packet interface data hm hidle =>
    obtain ⟨received', hmain', hall⟩ := explains_packet hmain data
    have hheard : (h.packet s.task.pc data).heard = h.heard ++ [data] := History.packet_heard h s.task.pc data
    refine ⟨received', .of_live rfl hmain' hstarted ?_ fun _ _ => ?_⟩
    · exact hall.trans ((congrArg (· ++ [data]) hi.heard).trans hheard.symm)
    · have hreceive : (Ra.receive data ls.last).1 = (Ra.receive data (lastPrefix h.heard)).1 := by
        rw [← hlast interface hm]
        rfl
      change (Ra.receive data ls.last).1 = lastPrefix (h.packet s.task.pc data).heard
      rw [hheard, lastPrefix_concat, hreceive]
  | pollChanged referenceDomain lookup newPrefix hm | pollSame referenceDomain lookup newPrefix hm
  | pollFailed referenceDomain lookup e hm =>
    refine ⟨received, .of_live rfl hmain hstarted hi.heard fun interface hra => ?_⟩
    cases hm.symm.trans hra
  | pollBegin | address | send => exact ⟨received, .of_live rfl hmain hstarted hi.heard hlast⟩

/-- **Every step is explained** by the history. -/
theorem explained_step {e : TaskEvent} (hi : ∃ received, Explained cfg u w s h received)
    (he : servedStep cfg u s e = some t) : ∃ received, Explained cfg u w t (h.note cfg s e t) received := by
  obtain ⟨received, hi⟩ := hi
  have hcase := servedStep_cases he
  obtain ⟨htask, -⟩ := taskStep_of_servedStep he
  obtain ⟨hlive, ⟨m, rfl, hm⟩ | ⟨l, rfl, hl⟩ | ⟨g, rfl, hg⟩⟩ := taskStep_cases htask
  · exact explained_main hi hlive hm hcase
  · cases hcase with
    | other _ _ _ daemon => exact explained_listener hi hlive hl daemon
  · cases hcase with
    | other _ _ _ daemon =>
      obtain ⟨-, -, -, hlistener, -, hpc⟩ := signalStep_frame hg
      refine ⟨received, ⟨s.task.pc, hpc, ?_⟩, fun hs => ?_, hi.heard, fun interface hra => ?_⟩
      · rw [daemon]
        exact hi.live hlive
      · rcases hpc with hpc | hpc
        · exact hlistener.trans (hi.unspawned (hpc.symm.trans hs))
        · cases hpc.symm.trans hs
      · rw [hlistener]
        exact hi.last interface hra

/-- At process start there is nothing to explain. -/
theorem explained_init : Explained cfg u w (.init w) .empty [] :=
  ⟨⟨.start, Or.inl rfl, ⟨rfl, rfl, rfl⟩, rfl, rfl⟩, fun _ => rfl, rfl, fun _ _ => rfl⟩

/-! ## Runs of the process -/

/-- The main task is between two cycles, or has not begun the first. -/
def MainPc.atRest : MainPc → Bool
  | .seeding _ | .cycle _ _ | .killed => false
  | _ => true

/-- A sequential daemon hears all packets. -/
theorem run_unstarted (hu : h.Unstarted received) :
    run (sourceStep cfg.method u) (h.start u w) h.events = some ⟨received, (h.start u w).daemon, []⟩ := by
  rw [hu.events]
  exact run_packets cfg.method u received _

/-- The invariant of observed runs. -/
theorem run_explained {es : List TaskEvent} (hr : run (recorded cfg u) (.init w, .empty) es = some (t, h)) :
    ∃ received, Explained cfg u w t h received := by
  refine observed_inv (I := fun s h => ∃ received, Explained cfg u w s h received) (fun s h e t hi he => ?_)
    ⟨[], explained_init⟩ hr
  exact explained_step hi he

/-- **The process refines the sequential daemon**, with every updater and in every interleaving from process start:
whenever the main task is between two cycles, the sequential daemon that lives through the history has received the same
packets, has the same cache and world, and has made the same calls. -/
theorem process_refines (cfg : Setup) (u : DnsUpdater σ) (w : σ) {es : List TaskEvent}
    (hr : run (recorded cfg u) (.init w, .empty) es = some (t, h)) (hrest : t.task.pc.atRest = true) :
    ∃ a, run (sourceStep cfg.method u) (h.start u w) h.events = some a ∧ a.received = h.heard ∧ a.daemon = t.daemon ∧
      cycleCalls a.cycles = h.made := by
  obtain ⟨received, hi⟩ := run_explained hr
  have hmain := hi.live (by rintro hk; rw [hk] at hrest; cases hrest)
  have hheard := hi.heard
  cases hpc : t.task.pc with
  | start | building | built =>
    rw [hpc] at hmain
    obtain ⟨hu, hseeds, hd⟩ := hmain
    rw [hu.held, List.append_nil] at hheard
    refine ⟨_, run_unstarted hu, hheard, ?_, hu.made.symm⟩
    rw [History.start, hseeds, hd]
    rfl
  | settingUp | subscribing | parked | stopped =>
    rw [hpc] at hmain
    obtain ⟨hheld, cycles, hrun, hcalls⟩ := hmain
    rw [hheld, List.append_nil] at hheard
    exact ⟨_, hrun, hheard, rfl, (List.append_nil _).symm.trans hcalls⟩
  | seeding todo | cycle startup c | killed =>
    rw [hpc] at hrest
    cases hrest

/-- The calls so far are the first calls of the sequential run that ends in `a`: a run of the history, with the cycle in
progress as its last one if the calls are more than those of the cycles that have ended. -/
structure History.MadeBy (cfg : Setup) (u : DnsUpdater σ) (w : σ) (h : History) (a : SourceState σ) : Prop where
  run : ∃ events, (events = h.events ∨ events = h.events ++ [.cycle h.answers cfg.staticSuffixes h.hosts]) ∧
    Lib.run (sourceStep cfg.method u) (h.start u w) events = some a
  made : h.made <+: cycleCalls a.cycles

/-- Wherever the main task stands. -/
theorem explains_made {pc : MainPc} (hi : h.Explains cfg u w received d pc) : ∃ a, h.MadeBy cfg u w a := by
  have hbefore : h.Unstarted received → ∃ a, h.MadeBy cfg u w a := fun hu =>
    ⟨_, ⟨_, Or.inl rfl, run_unstarted hu⟩, hu.made ▸ List.nil_prefix⟩
  have hbetween : h.Replays cfg u w received d [] → ∃ a, h.MadeBy cfg u w a := fun ⟨cycles, hrun, hcalls⟩ =>
    ⟨_, ⟨_, Or.inl rfl, hrun⟩, (List.append_nil _).symm.trans hcalls ▸ List.prefix_rfl⟩
  cases pc with
  | start | building | built | seeding todo => exact hbefore hi.1
  | settingUp | subscribing | parked | stopped => exact hbetween hi.2
  | cycle startup c =>
    cases c with
    | called | detecting => exact hbetween hi.2
    | failed | discovering p => exact hbetween hi.1
    | updating p todo =>
      obtain ⟨hd, done, before, ⟨cycles, hrun, hcalls⟩, hhosts, hpass⟩ := hi
      have htargets : cycleTargets p cfg.staticSuffixes h.hosts = targets p done ++ targets p todo := by
        rw [cycleTargets, hhosts, targets, List.map_append]
        rfl
      refine ⟨_, ⟨_, Or.inr rfl, run_append hrun rfl⟩, ?_⟩
      -- the calls of the cycle in progress are the first calls of the last cycle
      rw [cycleCalls_cons, ← hcalls, List.prefix_append_right_inj, hd, runUpdateCycle_visits, htargets, pass_append,
        calls_append]
      exact List.prefix_append _ _
  | killed => exact hi.elim

/-- A call of a sequential run belongs to one of its cycles. -/
theorem mem_cycleCalls {cycles : List (CycleRecord σ)} {call : String × Ipv6Addr} :
    call ∈ cycleCalls cycles ↔ ∃ c ∈ cycles, call ∈ calls c.result.visits := by
  simp only [cycleCalls, List.mem_flatMap, List.mem_reverse]

/-- **The process publishes only correct global addresses**, in every interleaving from process start, also in a cycle
that is cut short: its calls are the first calls of the cycles of a sequential run, each of them for an address whose
upper half the source of its cycle presented and whose lower half is that of a host of its cycle. -/
theorem process_published (cfg : Setup) (u : DnsUpdater σ) (w : σ) {es : List TaskEvent}
    (hr : run (recorded cfg u) (.init w, .empty) es = some (t, h)) : ∃ a, h.MadeBy cfg u w a ∧
    ∀ call ∈ h.made, ∃ c ∈ a.cycles, call ∈ calls c.result.visits ∧ Published cfg.method c call.1 call.2 := by
  obtain ⟨received, hi⟩ := run_explained hr
  obtain ⟨pc, -, hmain⟩ := hi.main
  obtain ⟨a, hmade⟩ := explains_made hmain
  obtain ⟨events, -, hrun⟩ := hmade.run
  have hpublished : AllPublished cfg.method a :=
    run_inv (fun _ _ _ hi he => sourceStep_published hi he) (fun _ hc => absurd hc List.not_mem_nil) hrun
  refine ⟨a, hmade, fun call hcall => ?_⟩
  obtain ⟨c, hc, hcalls⟩ := mem_cycleCalls.1 (hmade.made.subset hcall)
  exact ⟨c, hc, hcalls, hpublished c hc call hcalls⟩

end Steps

/-! ## Two packets and one cycle -/

/-- A host with a fixed suffix, in a network with Router Advertisements. -/
def sampleSetup : Setup := ⟨.ra "eth0", [(⟨0, 0, 0, 0, 0, 0, 0, 1⟩, "nas.example.com")]⟩

/-- Up to the `detect()` of the startup cycle, which has heard one packet. -/
def sampleStartup : List TaskEvent :=
  [.main .spawnListener, .listener (.packet samplePacket), .listener .send, .main .newReturns, .main (.seedHosts none),
    .main (.seedRecord (.ok none)), .main .startupCycle, .main .callDetect,
    .main (.detectReturns ⟨.error "", .error ""⟩)]

/-- The rest of the cycle, with one more packet. -/
def sampleCycle : List TaskEvent :=
  [.main (.discovered none), .listener (.packet samplePacket), .main (.host (.ok ())), .listener .send]

/-- The packet in the cycle is received after it in the sequential run. -/
theorem process_refines_nas : ∃ t h, run (recorded sampleSetup ackUpdater) (.init [], .empty)
      (sampleStartup ++ sampleCycle ++ [.main .endCycle]) = some (t, h) ∧
    h.made = [("nas.example.com", ⟨0x2001, 0xdb8, 1, 2, 0, 0, 0, 1⟩)] ∧
    ∃ a, run (sourceStep sampleSetup.method ackUpdater) (h.start ackUpdater []) h.events = some a ∧
      a.received = h.heard ∧ a.daemon = t.daemon ∧ cycleCalls a.cycles = h.made :=
  ⟨_, _, rfl, by decide, process_refines sampleSetup ackUpdater []
    (show run _ _ (sampleStartup ++ sampleCycle ++ [.main .endCycle]) = _ from rfl) rfl⟩

/-- The process is killed in its startup cycle, after a call. -/
theorem process_published_nas : ∃ t h, run (recorded sampleSetup ackUpdater) (.init [], .empty)
      (sampleStartup ++ sampleCycle ++ [.signal .sigterm]) = some (t, h) ∧
    h.made.length = 1 ∧ ∃ a, h.MadeBy sampleSetup ackUpdater [] a ∧
      ∀ call ∈ h.made, ∃ c ∈ a.cycles, call ∈ calls c.result.visits ∧ Published sampleSetup.method c call.1 call.2 :=
  ⟨_, _, rfl, rfl, process_published sampleSetup ackUpdater []
    (show run _ _ (sampleStartup ++ sampleCycle ++ [.signal .sigterm]) = _ from rfl)⟩

end DdnsIpv6

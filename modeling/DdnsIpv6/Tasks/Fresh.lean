import DdnsIpv6.Cycle.Effect
import DdnsIpv6.Tasks.Notify
import DdnsIpv6.Tasks.Refinement

/-!
# The last advertisement is acted on

With RA detection, when the process has come to rest (the main task is parked and has seen every change, and the
listener is not about to send one) its last cycle was told the prefix of the last packet that has one, if no change was
sent in the window before the subscription. What this cycle set without failures is what the cache has for its hosts
(`quiet_upToDate`).
-/

namespace DdnsIpv6

open Lib Lib.WriteThrough Prefix

/-! ## The last cycle of a sequential run -/

/-- One more event, seen from the end: the packets that came after the last cycle. -/
def afterCycle (packets : List (List UInt8)) : SourceEvent → List (List UInt8)
  | .packet data => packets ++ [data]
  | .cycle _ _ _ => []

/-- The packets after the last cycle. -/
def sinceCycle (events : List SourceEvent) : List (List UInt8) := events.foldl afterCycle []

def SourceEvent.isCycle : SourceEvent → Bool
  | .packet _ => false
  | .cycle _ _ _ => true

theorem sinceCycle_concat (events : List SourceEvent) (e : SourceEvent) :
    sinceCycle (events ++ [e]) = afterCycle (sinceCycle events) e := by
  rw [sinceCycle, List.foldl_append]
  rfl

theorem sinceCycle_packets (events : List SourceEvent) (packets : List (List UInt8)) :
    sinceCycle (events ++ packets.map .packet) = sinceCycle events ++ packets := by
  induction packets using List.reverseRecOn with
  | nil => simp only [List.map_nil, List.append_nil]
  | append_singleton packets data ih =>
    rw [List.map_append, List.map_singleton, ← List.append_assoc, sinceCycle_concat, ih, afterCycle, List.append_assoc]

section Sequential

variable {σ : Type*} {method : PrefixConfig} {u : DnsUpdater σ} {a b : SourceState σ}

/-- The last cycle left the daemon as it is, and `packets` came after it. -/
structure LastCycle (method : PrefixConfig) (u : DnsUpdater σ) (a : SourceState σ) (packets : List (List UInt8))
    (c : CycleRecord σ) : Prop where
  last : a.cycles.head? = some c
  received : a.received = c.received ++ packets
  daemon : a.daemon = c.result.state
  detected : c.detected = detect method (lastPrefix c.received) c.answers
  ran : ∀ p, c.detected = .ok p → ∃ d, c.result.visits = (pass u.setRecord (targets p c.hosts) d).1 ∧
    c.result.state = (pass u.setRecord (targets p c.hosts) d).2

/-- A packet comes after the last cycle, a cycle is the last one. -/
theorem lastCycle_step {e : SourceEvent} {packets : List (List UInt8)}
    (hi : e.isCycle = true ∨ ∃ c, LastCycle method u a packets c) (h : sourceStep method u a e = some b) :
    ∃ c, LastCycle method u b (afterCycle packets e) c := by
  cases e with
  | packet data =>
    obtain hc | ⟨c, hc⟩ := hi
    · cases hc
    · cases h
      refine ⟨c, hc.last, ?_, hc.daemon, hc.detected, hc.ran⟩
      rw [afterCycle, ← List.append_assoc, ← hc.received]
  | cycle answers staticSuffixes discovered =>
    cases h
    refine ⟨_, rfl, (List.append_nil _).symm, rfl, rfl, fun p hp => ⟨a.daemon, ?_⟩⟩
    simp only at hp
    simp only [hp, runUpdateCycle_visits, runUpdateCycle_state, cycleTargets, and_self]

theorem run_lastCycle : ∀ {events : List SourceEvent} {a : SourceState σ} {packets : List (List UInt8)},
    (∃ e ∈ events, e.isCycle = true) ∨ (∃ c, LastCycle method u a packets c) →
    run (sourceStep method u) a events = some b → ∃ c, LastCycle method u b (events.foldl afterCycle packets) c
  | [], a, packets, hi, hr => by
    cases hr
    obtain ⟨e, he, -⟩ | hi := hi
    · exact absurd he List.not_mem_nil
    · exact hi
  | e :: events, a, packets, hi, hr => by
    obtain ⟨m, hm, hr⟩ := run_cons hr
    rw [List.foldl_cons]
    by_cases hnow : e.isCycle = true ∨ ∃ c, LastCycle method u a packets c
    · exact run_lastCycle (Or.inr (lastCycle_step hnow hm)) hr
    · -- the first cycle is still to come
      refine run_lastCycle (Or.inl ?_) hr
      obtain ⟨e', he', hc⟩ | hi := hi
      · rcases List.mem_cons.1 he' with rfl | he'
        · exact absurd (Or.inl hc) hnow
        · exact ⟨e', he', hc⟩
      · exact absurd (Or.inr hi) hnow

end Sequential

/-- Packets without a prefix leave the listener's prefix as it is. -/
theorem lastPrefix_append {received packets : List (List UInt8)}
    (h : ∀ data ∈ packets, Ra.packetPrefix data = none) : lastPrefix (received ++ packets) = lastPrefix received := by
  induction packets using List.reverseRecOn with
  | nil => rw [List.append_nil]
  | append_singleton packets data ih =>
    have hnone : Ra.packetPrefix data = none := h data (List.mem_append_right _ List.mem_cons_self)
    rw [← List.append_assoc, lastPrefix_concat, ih fun d hd => h d (List.mem_append_left _ hd), Ra.receive, hnone]

/-! ## What is kept -/

/-- The packets that `detect()` was not told of. -/
def History.unread (h : History) (pc : MainPc) : List (List UInt8) :=
  if pc.hasDetected then h.held else sinceCycle h.events

/-- After the startup cycle. -/
def MainPc.hasCycled : MainPc → Bool
  | .settingUp | .subscribing | .parked | .stopped | .cycle false _ => true
  | _ => false

/-- A `detect()` has returned, and the next one is not called yet. -/
def MainPc.isInformed : MainPc → Bool
  | .cycle _ .called | .cycle _ .detecting | .killed => false
  | pc => pc.inWindow || pc.inLoop

/-- What the steps keep: once a `detect()` has returned, a packet with a prefix that it was not told of is one that the
listener is about to announce or that the main loop has yet to see. -/
structure Fresh (s : TaskState) (h : History) : Prop where
  cycled : s.pc.hasCycled = true → ∃ e ∈ h.events, e.isCycle = true
  unread : s.pc.isInformed = true →
    (∀ data ∈ h.unread s.pc, Ra.packetPrefix data = none) ∨ s.Sending ∨ s.Unseen

section Steps

variable {s t : TaskState} {h h' : History}

theorem fresh_init : Fresh .init .empty := ⟨(fun hc => nomatch hc), fun hd => nomatch hd⟩

/-- Where there is nothing to keep. -/
theorem Fresh.early (hc : t.pc.hasCycled = true → ∃ e ∈ h.events, e.isCycle = true) (hd : t.pc.isInformed = false) :
    Fresh t h :=
  ⟨hc, fun hd' => absurd (hd.symm.trans hd') Bool.false_ne_true⟩

/-- Steps that neither read nor receive a packet. -/
theorem Fresh.quiet (hi : Fresh s h) (hcycled : t.pc.hasCycled = true → s.pc.hasCycled = true)
    (hinformed : t.pc.isInformed = true → s.pc.isInformed = true) (hevents : h'.events = h.events)
    (hunread : h'.unread t.pc = h.unread s.pc) (hl : t.listener = s.listener) (hunseen : s.Unseen → t.Unseen) :
    Fresh t h' := by
  refine ⟨fun hc => ?_, fun hd => ?_⟩
  · rw [hevents]
    exact hi.cycled (hcycled hc)
  · rw [hunread, sending_congr hl]
    exact (hi.unread (hinformed hd)).imp_right (Or.imp_right hunseen)

end Steps

section Served

variable {σ : Type} {cfg : Setup} {u : DnsUpdater σ} {w : σ} {s t : Served σ} {task : TaskState} {h : History}
  {received : List (List UInt8)}

/-- A step of the main task. -/
theorem fresh_main {m : MainEvent} (hi : Fresh s.task h) (hrec : ReceiverInv s.task)
    (hx : Explained cfg u w s h received) (hlive : s.task.pc ≠ .killed) (hm : mainStep cfg s.task m = some task) :
    Fresh task (h.note cfg s (.main m) t) := by
  have hmain := hx.live hlive
  cases mainStep_cases hm with
  | spawnListener hpc | newReturns hpc | seedHosts discovered hpc | seedRecord answer e todo hpc | startupCycle hpc =>
    exact .early (fun hc => nomatch hc) rfl
  | callDetect startup hpc =>
    refine .early (fun hc => hi.cycled ?_) rfl
    rw [hpc]
    cases startup <;> exact hc
  | detectReturns answers startup c hpc ok error =>
    rw [hpc] at hmain
    have hdetected : (MainPc.cycle startup c).hasDetected = true := by
      cases hd : detect cfg.method (s.task.listener.bind Listener.last) answers with
      | ok p =>
        obtain rfl := ok p hd
        rfl
      | error e =>
        obtain rfl := error e hd
        rfl
    refine ⟨fun hc => hi.cycled ?_, fun _ => Or.inl fun data hdata => ?_⟩
    · rw [hpc]
      cases startup <;> exact hc
    · -- all packets so far have been heard by this `detect()`
      have hheld : (h.note cfg s (.main (.detectReturns answers)) t).held = [] := hmain.1
      have hunread : (h.note cfg s (.main (.detectReturns answers)) t).unread (.cycle startup c) = [] :=
        (if_pos hdetected).trans hheld
      change data ∈ (h.note cfg s (.main (.detectReturns answers)) t).unread (.cycle startup c) at hdata
      rw [hunread] at hdata
      exact absurd hdata List.not_mem_nil
  | discovered hosts startup p hpc =>
    cases startup <;> exact hi.quiet (by rw [hpc]; exact id) (by rw [hpc]; exact id) rfl (by rw [hpc]; rfl) rfl id
  | host outcome startup p suffix domain todo hpc =>
    cases startup <;> exact hi.quiet (by rw [hpc]; exact id) (by rw [hpc]; exact id) rfl (by rw [hpc]; rfl) rfl id
  | endCycle startup c hpc hc =>
    have hdetected : s.task.pc.hasDetected = true := by
      rw [hpc]
      rcases hc with rfl | ⟨p, rfl⟩ <;> rfl
    have hinformed : s.task.pc.isInformed = true := by
      rw [hpc]
      rcases hc with rfl | ⟨p, rfl⟩ <;> cases startup <;> rfl
    have hplace : (s.task.leaveCycle startup).pc.hasDetected = false := by cases startup <;> rfl
    have hunread : (h.note cfg s (.main .endCycle) t).unread (s.task.leaveCycle startup).pc = h.unread s.task.pc := by
      rw [History.unread, History.unread, if_neg (by rw [hplace]; exact Bool.false_ne_true), if_pos hdetected]
      simp only [History.note, History.endCycle]
      rw [List.append_cons, sinceCycle_packets, sinceCycle_concat]
      rfl
    refine ⟨fun _ => ⟨_, List.mem_append_right _ List.mem_cons_self, rfl⟩, fun _ => ?_⟩
    rw [hunread]
    exact hi.unread hinformed
  | spawnSignalTasks hpc | cancelled hpc hc =>
    exact hi.quiet (by rw [hpc]; exact id) (by rw [hpc]; exact id) rfl (by rw [hpc]; rfl) rfl id
  | subscribe hpc =>
    have hrx : s.task.rx = none := hrec.early (by rw [hpc]; rfl)
    exact hi.quiet (by rw [hpc]; exact id) (by rw [hpc]; exact id) rfl (by rw [hpc]; rfl) rfl
      fun hu => absurd hu (not_unseen_of_none hrx)
  | changed r r' hpc hr hc | notified hpc hp =>
    refine .early (fun hc => hi.cycled ?_) rfl
    rw [hpc]
    exact hc

/-- A packet is unread until the next `detect()`. -/
theorem History.unread_packet (h : History) (pc : MainPc) (data : List UInt8) :
    (h.packet pc data).unread pc = h.unread pc ++ [data] := by
  unfold History.packet History.unread
  cases hpc : pc.hasDetected with
  | true => rfl
  | false =>
    simp only [Bool.false_eq_true, if_false]
    exact sinceCycle_concat h.events (.packet data)

/-- A step of the RA listener. -/
theorem fresh_listener {interface : String} (hra : cfg.method = .ra interface) {l : ListenerEvent} (hi : Fresh s.task h)
    (hrec : ReceiverInv s.task) (hlive : s.task.pc ≠ .killed) (hw : NoSendInWindow s.task (.listener l))
    (hl : listenerStep cfg s.task l = some task) : Fresh task (h.note cfg s (.listener l) t) := by
  obtain ⟨ls, hls, hcase⟩ := listenerStep_cases hl
  cases hcase with
  | packet _ data _ hidle =>
    have hidle' : ¬s.task.Sending := by
      simp only [TaskState.Sending, hls, Option.map_some, hidle, Option.some.injEq, reduceCtorEq, not_false_eq_true]
    refine ⟨fun hc => ?_, fun hd => ?_⟩
    · obtain ⟨e, he, hcycle⟩ := hi.cycled hc
      refine ⟨e, ?_, hcycle⟩
      simp only [History.note, History.packet]
      split
      · exact he
      · exact List.mem_append_left _ he
    · cases hp : Ra.packetPrefix data with
      | none =>
        refine ((hi.unread hd).imp ?_ (Or.imp_left fun hs => absurd hs hidle'))
        intro hnone d hd
        change d ∈ (h.packet s.task.pc data).unread s.task.pc at hd
        rw [History.unread_packet] at hd
        rcases List.mem_append.1 hd with hd | hd
        · exact hnone d hd
        · rw [List.mem_singleton.1 hd]
          exact hp
      | some p =>
        have hreceive : (Ra.receive data ls.last).2 = true := by simp only [Ra.receive, hp]
        refine Or.inr (Or.inl ?_)
        simp only [TaskState.Sending, Option.map_some, if_pos hreceive]
  | send hsending =>
    refine ⟨fun hc => hi.cycled hc, fun hd => Or.inr (Or.inr ?_)⟩
    have hwindow : s.task.pc.inWindow = false := hw
    have hloop : s.task.pc.inLoop = true := by
      unfold MainPc.isInformed at hd
      split at hd
      · cases hd
      · cases hd
      · cases hd
      · rwa [hwindow, Bool.false_or] at hd
    exact unseen_of_send hrec (hrec.subscribed hloop hlive) rfl rfl
  | pollBegin _ hm | pollChanged _ _ _ hm | pollSame _ _ _ hm | pollFailed _ _ _ hm | address _ _ hm =>
    cases hm.symm.trans hra

/-- **Every step that is no send in the window keeps it.** -/
theorem fresh_step {interface : String} (hra : cfg.method = .ra interface) {e : TaskEvent} (hi : Fresh s.task h)
    (hrec : ReceiverInv s.task) (hx : Explained cfg u w s h received) (hw : NoSendInWindow s.task e)
    (he : taskStep cfg s.task e = some t.task) : Fresh t.task (h.note cfg s e t) := by
  obtain ⟨hlive, ⟨m, rfl, hm⟩ | ⟨l, rfl, hl⟩ | ⟨g, rfl, hg⟩⟩ := taskStep_cases he
  · exact fresh_main hi hrec hx hlive hm
  · exact fresh_listener hra hi hrec hlive hw hl
  · obtain ⟨-, hchan, hrx, hlistener, -, hpc | hpc⟩ := signalStep_frame hg
    · exact hi.quiet (by rw [hpc]; exact id) (by rw [hpc]; exact id) rfl (by rw [hpc]; rfl) hlistener
        (unseen_congr hrx hchan).2
    · refine .early (fun hc => ?_) (by rw [hpc]; rfl)
      rw [hpc] at hc
      cases hc

/-- What is kept of the process, its updater and the observer. -/
structure FreshInv (cfg : Setup) (u : DnsUpdater σ) (w : σ) (s : Served σ) (h : History) : Prop
    extends ReceiverInv s.task, Fresh s.task h where
  explained : ∃ received, Explained cfg u w s h received

theorem freshInv_init : FreshInv cfg u w (.init w) .empty :=
  ⟨receiverInv_init, fresh_init, [], explained_init⟩

theorem freshInv_step {interface : String} (hra : cfg.method = .ra interface) {e : TaskEvent}
    (hi : FreshInv cfg u w s h) (hw : NoSendInWindow s.task e) (he : servedStep cfg u s e = some t) :
    FreshInv cfg u w t (h.note cfg s e t) := by
  obtain ⟨htask, -⟩ := taskStep_of_servedStep he
  obtain ⟨received, hx⟩ := hi.explained
  exact ⟨receiverInv_step hi.toReceiverInv htask, fresh_step hra hi.toFresh hi.toReceiverInv hx hw htask,
    explained_step hi.explained he⟩

/-- The main task is parked and has seen every change, and none is about to be sent. -/
structure TaskState.Quiet (s : TaskState) : Prop where
  parked : s.pc = .parked
  seen : ¬s.Unseen
  sent : ¬s.Sending

/-- The last cycle has acted on the last prefix that was heard of: it detected this prefix, and unless one of its calls
failed the cache has the address with this prefix for its hosts (for the last entry of each domain). -/
structure UpToDate (h : History) (cache : Cache String Ipv6Addr) (c : CycleRecord σ) : Prop where
  detected : c.detected = Ra.detect (lastPrefix h.heard)
  cached : ∀ p, c.detected = .ok p → (∀ x ∈ c.result.visits, x.report.answer ≠ some false) →
    ∀ before e after, c.hosts = before ++ e :: after → e.2 ∉ after.map Prod.snd →
      cache e.2 = some (combine p e.1)

/-- A quiet process has acted on the last prefix. -/
theorem FreshInv.upToDate {interface : String} (hra : cfg.method = .ra interface) (hi : FreshInv cfg u w t h)
    (hq : t.task.Quiet) : ∃ a c, run (sourceStep cfg.method u) (h.start u w) h.events = some a ∧
      a.cycles.head? = some c ∧ UpToDate h t.task.cache c := by
  obtain ⟨received, hx⟩ := hi.explained
  have hmain := hx.live (by rw [hq.parked]; simp)
  have hnone : ∀ data ∈ sinceCycle h.events, Ra.packetPrefix data = none := by
    have hunread := (hi.unread (by rw [hq.parked]; rfl)).resolve_right (not_or.2 ⟨hq.sent, hq.seen⟩)
    rw [hq.parked] at hunread
    exact hunread
  rw [hq.parked] at hmain
  obtain ⟨hheld, cycles, hrun, -⟩ := hmain
  obtain ⟨c, hc⟩ := run_lastCycle (Or.inl (hi.cycled (by rw [hq.parked]; rfl))) hrun
  have hheard : h.heard = c.received ++ sinceCycle h.events := by
    rw [← hx.heard, hheld, List.append_nil]
    exact hc.received
  have hcache : t.task.cache = c.result.state.cache := congrArg State.cache hc.daemon
  refine ⟨_, c, hrun, hc.last, ?_, fun p hp hok before e after hhosts hlast => ?_⟩
  · rw [hc.detected, hra, hheard, lastPrefix_append hnone]
    rfl
  · obtain ⟨d, hvisits, hstate⟩ := hc.ran p hp
    have htargets : targets p c.hosts = targets p before ++ (e.2, combine p e.1) :: targets p after := by
      rw [hhosts, targets, List.map_append]
      rfl
    rw [hvisits, htargets] at hok
    rw [hcache, hstate, htargets]
    exact pass_decides (by rw [targets_keys]; exact hlast) hok

/-- **At rest the last advertisement has been acted on**, with every updater and in every interleaving from process
start in which no change is sent in the window: the last cycle of a quiet process has acted on the prefix of the last
packet that has one. -/
theorem quiet_upToDate (cfg : Setup) {interface : String} (hra : cfg.method = .ra interface) (u : DnsUpdater σ) (w : σ)
    {es : List TaskEvent} (hr : run (recorded cfg u) (.init w, .empty) es = some (t, h))
    (hw : Along (servedStep cfg u) (fun s e => NoSendInWindow s.task e) (.init w) es) (hq : t.task.Quiet) :
    ∃ a c, run (sourceStep cfg.method u) (h.start u w) h.events = some a ∧ a.cycles.head? = some c ∧
      UpToDate h t.task.cache c := by
  refine FreshInv.upToDate hra (observed_inv_along (I := FreshInv cfg u w) (fun s h e t hi hw he => ?_) freshInv_init
    hw hr) hq
  exact freshInv_step hra hi hw he

end Served

/-- A packet in the startup cycle, which is announced once the loop has subscribed, and the cycle for it. -/
def sampleReadvertised : List TaskEvent :=
  sampleStartup ++ [.main (.discovered none), .listener (.packet samplePacket), .main (.host (.ok ())),
    .main .endCycle, .main .spawnSignalTasks, .main .subscribe, .listener .send, .main .changed, .main .callDetect,
    .main (.detectReturns ⟨.error "", .error ""⟩), .main (.discovered none), .main (.host (.ok ())), .main .endCycle]

/-- The second packet is acted on. -/
theorem quiet_upToDate_nas : ∃ t h,
    run (recorded sampleSetup ackUpdater) (.init [], .empty) sampleReadvertised = some (t, h) ∧
    h.heard = [samplePacket, samplePacket] ∧
    ∃ a c, run (sourceStep sampleSetup.method ackUpdater) (h.start ackUpdater []) h.events = some a ∧
      a.cycles.head? = some c ∧ UpToDate h t.task.cache c :=
  ⟨_, _, rfl, rfl, quiet_upToDate sampleSetup rfl ackUpdater [] (show run _ _ sampleReadvertised = _ from rfl)
    (by decide) ⟨rfl, by decide, by decide⟩⟩

end DdnsIpv6

import DdnsIpv6.Cycle
import DdnsIpv6.Sources
import DdnsIpv6.Lib.Run
import DdnsIpv6.Lib.Watch

/-!
# The tasks of the process

The main task, the background listener of the detector and the signal tasks, interleaved from process start. A step is
one event of one of them; the outcomes of remote calls come with the events. The notes of an observer (`Noted`) take
part in no step.

- `MainEvent`: build the detector, seed the cache, the startup cycle, subscribe, then the loop of `select!` and cycles;
- `ListenerEvent`: the poll loop, the event loop or the packet loop, each ending with `change_tx.send(())`;
- `SignalEvent`: handlers that are registered at some time after the tasks are spawned, and signals.
-/

namespace DdnsIpv6

open Lib Lib.WriteThrough Prefix

/-- What the process was configured with. -/
structure Setup where
  method : PrefixConfig
  staticSuffixes : List (Ipv6Addr × String)

/-! ## State -/

/-- Where `run_update_cycle` stands. -/
inductive CyclePc where
  | called
  | detecting
  | discovering (p : Ipv6Addr)
  | updating (p : Ipv6Addr) (todo : List (Ipv6Addr × String))
  /-- Detection failed. -/
  | failed
  deriving DecidableEq, Repr

/-- Where the main task stands. -/
inductive MainPc where
  | start
  /-- In `new` of the detector, whose listener is spawned and whose first receiver is still alive. -/
  | building
  | built
  /-- Querying the current records. -/
  | seeding (todo : List (Ipv6Addr × String))
  /-- In an update cycle, the startup cycle or one of the main loop. -/
  | cycle (startup : Bool) (at_ : CyclePc)
  /-- After the startup cycle: spawning the signal tasks. -/
  | settingUp
  | subscribing
  /-- In `select!`. -/
  | parked
  | stopped
  /-- By a signal without a handler. -/
  | killed
  deriving DecidableEq, Repr

inductive ListenerPc where
  | idle
  | polling
  | sending
  deriving DecidableEq, Repr

/-- The listener, with `bg_last` (DNS) or `last_prefix` (RA). -/
structure Listener where
  pc : ListenerPc
  last : Option Ipv6Addr
  deriving DecidableEq, Repr

/-- The signal tasks, the `Notify` of `force_refresh` and the cancellation token. -/
structure Signals where
  spawned : Bool
  intListening : Bool
  intReceived : Bool
  usr1Listening : Bool
  usr1Received : Bool
  permit : Bool
  cancelled : Bool
  deriving DecidableEq, Repr

/-- The notes of an observer. -/
structure Noted where
  /-- The startup cycle's `detect()` has returned. -/
  startupDetected : Bool
  /-- A change was sent after that, and `detect()` was not called since. -/
  pending : Bool
  /-- The running poll began after the last cycle ended. -/
  pollFresh : Bool
  /-- The prefix of the last poll, once it is over (with its `send(())`, if any), if it succeeded and began after the
  last cycle ended. -/
  lastPoll : Option Ipv6Addr
  deriving DecidableEq, Repr

structure TaskState where
  pc : MainPc
  cache : Cache String Ipv6Addr
  chan : Watch.Channel
  /-- `change_rx` -/
  rx : Option Watch.Receiver
  listener : Option Listener
  signals : Signals
  noted : Noted

/-- Process start. -/
def TaskState.init : TaskState where
  pc := .start
  cache := fun _ => none
  chan := ⟨0, 0⟩
  rx := none
  listener := none
  signals := ⟨false, false, false, false, false, false, false⟩
  noted := ⟨false, false, false, none⟩

/-! ## The main task -/

inductive MainEvent where
  /-- Create the channel and spawn the listener. -/
  | spawnListener
  /-- `new` returns, its receiver is dropped. -/
  | newReturns
  /-- The hosts to seed the cache for. -/
  | seedHosts (discovered : Option (List HostEntry))
  /-- The answer to one `get_record`. -/
  | seedRecord (answer : Except Error (Option Ipv6Addr))
  | startupCycle
  | callDetect
  /-- `detect()` returns, its source having said `answers`. -/
  | detectReturns (answers : Answers)
  | discovered (hosts : Option (List HostEntry))
  /-- One host, with the outcome of `set_record` if it is called. -/
  | host (outcome : Except Error Unit)
  | endCycle
  | spawnSignalTasks
  /-- `detector.changes()`, and into the loop. -/
  | subscribe
  /-- `select!` takes the branch of `change_rx.changed()`. -/
  | changed
  /-- `select!` takes the branch of `force_refresh.notified()`. -/
  | notified
  /-- `select!` takes the branch of `cancel_token.cancelled()`. -/
  | cancelled

/-- An updater whose calls end with the given outcomes. -/
def answering (set : Except Error Unit) (get : Except Error (Option Ipv6Addr)) : DnsUpdater Unit :=
  ⟨fun _ _ w => (set, w), fun _ w => (get, w)⟩

/-- The cycle is over: back to `main`. -/
def TaskState.leaveCycle (s : TaskState) (startup : Bool) : TaskState :=
  { s with
    pc := if startup then .settingUp else .parked
    noted := { s.noted with pollFresh := false, lastPoll := none } }

/-- One step of the main task. -/
def mainStep (cfg : Setup) (s : TaskState) (e : MainEvent) : Option TaskState :=
  match e, s.pc with
  | .spawnListener, .start =>
    some { s with pc := .building, chan := Watch.channel.1, listener := some ⟨.idle, none⟩ }
  | .newReturns, .building => some { s with pc := .built, chan := s.chan.dropReceiver }
  | .seedHosts discovered, .built =>
    some { s with pc := .seeding (allSuffixes cfg.staticSuffixes (discovered.getD [])) }
  | .seedRecord answer, .seeding (e :: todo) =>
    some { s with pc := .seeding todo, cache := (seedCache (answering (.ok ()) answer) [e] ⟨s.cache, ()⟩).cache }
  | .startupCycle, .seeding [] => some { s with pc := .cycle true .called }
  | .callDetect, .cycle startup .called =>
    some { s with pc := .cycle startup .detecting, noted := { s.noted with pending := false } }
  | .detectReturns answers, .cycle startup .detecting =>
    let pc := match detect cfg.method (s.listener.bind Listener.last) answers with
      | .ok p => .discovering p
      | .error _ => .failed
    some { s with pc := .cycle startup pc, noted := { s.noted with startupDetected := true } }
  | .discovered hosts, .cycle startup (.discovering p) =>
    let (_, suffixes) := collectSuffixes [] (allSuffixes cfg.staticSuffixes (hosts.getD []))
    some { s with pc := .cycle startup (.updating p suffixes) }
  | .host outcome, .cycle startup (.updating p ((suffix, domain) :: todo)) =>
    let (_, d) := updateHost (answering outcome (.ok none)) (combine p suffix) domain ⟨s.cache, ()⟩
    some { s with pc := .cycle startup (.updating p todo), cache := d.cache }
  | .endCycle, .cycle startup .failed => some (s.leaveCycle startup)
  | .endCycle, .cycle startup (.updating _ []) => some (s.leaveCycle startup)
  | .spawnSignalTasks, .settingUp => some { s with pc := .subscribing, signals := { s.signals with spawned := true } }
  | .subscribe, .subscribing => some { s with pc := .parked, chan := s.chan.subscribe.1, rx := some s.chan.subscribe.2 }
  | .changed, .parked =>
    (s.rx.bind fun r => r.changed s.chan).map fun r => { s with pc := .cycle false .called, rx := some r }
  | .notified, .parked =>
    if s.signals.permit then
      some { s with pc := .cycle false .called, signals := { s.signals with permit := false } }
    else none
  | .cancelled, .parked => if s.signals.cancelled then some { s with pc := .stopped } else none
  | _, _ => none

/-! ## The listener -/

inductive ListenerEvent where
  /-- DNS: the interval is over, the lookup begins. -/
  | pollBegin
  /-- DNS: the lookup ends. -/
  | pollEnd (lookup : Except String (List IpAddr))
  /-- RA: a packet is received. -/
  | packet (data : List UInt8)
  /-- netlink: a `NewAddress` or `DelAddress` message came. -/
  | address (isIpv6 : Bool)
  /-- `change_tx.send(())` -/
  | send

/-- One step of the listener. -/
def listenerStep (cfg : Setup) (s : TaskState) (e : ListenerEvent) : Option TaskState :=
  match s.listener with
  | none => none
  | some l =>
    match e, cfg.method, l.pc with
    | .pollBegin, .dns _, .idle =>
      some { s with listener := some { l with pc := .polling }, noted := { s.noted with pollFresh := true } }
    | .pollEnd lookup, .dns referenceDomain, .polling =>
      match Dns.resolvePrefixInner lookup referenceDomain with
      | .ok newPrefix =>
        if l.last ≠ some newPrefix then
          some { s with listener := some ⟨.sending, some newPrefix⟩, noted := { s.noted with lastPoll := none } }
        else
          let lastPoll := if s.noted.pollFresh then some newPrefix else none
          some { s with listener := some { l with pc := .idle }, noted := { s.noted with lastPoll := lastPoll } }
      | .error _ => some { s with listener := some { l with pc := .idle }, noted := { s.noted with lastPoll := none } }
    | .packet data, .ra _, .idle =>
      let (last, change) := Ra.receive data l.last
      some { s with listener := some ⟨if change then .sending else .idle, last⟩ }
    | .address isIpv6, .netlink _, .idle =>
      some { s with listener := some { l with pc := if isIpv6 then .sending else .idle } }
    | .send, _, .sending =>
      some { s with
        listener := some { l with pc := .idle }
        chan := s.chan.send
        noted := { s.noted with
          pending := s.noted.pending || s.noted.startupDetected
          lastPoll := if s.noted.pollFresh then l.last else none } }
    | _, _, _ => none

/-! ## Signals -/

inductive SignalEvent where
  /-- The tasks register their handlers. -/
  | listenInt
  | listenUsr1
  /-- A signal is delivered. -/
  | sigint
  | sigusr1
  | sigterm
  /-- The tasks act on a signal that they received. -/
  | cancel
  | notifyOne

/-- One step of the signal tasks, or a signal. -/
def signalStep (s : TaskState) (e : SignalEvent) : Option TaskState :=
  match e with
  | .listenInt =>
    if s.signals.spawned then some { s with signals := { s.signals with intListening := true } } else none
  | .listenUsr1 =>
    if s.signals.spawned then some { s with signals := { s.signals with usr1Listening := true } } else none
  | .sigint =>
    if s.signals.intListening then some { s with signals := { s.signals with intReceived := true } }
    else some { s with pc := .killed }
  | .sigusr1 =>
    if s.signals.usr1Listening then some { s with signals := { s.signals with usr1Received := true } }
    else some { s with pc := .killed }
  -- no task listens for SIGTERM
  | .sigterm => some { s with pc := .killed }
  | .cancel =>
    if s.signals.intReceived then some { s with signals := { s.signals with cancelled := true } } else none
  | .notifyOne =>
    if s.signals.usr1Received then
      some { s with signals := { s.signals with usr1Received := false, permit := true } }
    else none

/-! ## The process -/

inductive TaskEvent where
  | main (e : MainEvent)
  | listener (e : ListenerEvent)
  | signal (e : SignalEvent)

/-- One step of the process. -/
def taskStep (cfg : Setup) (s : TaskState) (e : TaskEvent) : Option TaskState :=
  if s.pc = .stopped ∨ s.pc = .killed then none
  else match e with
    | .main e => mainStep cfg s e
    | .listener e => listenerStep cfg s e
    | .signal e => signalStep s e

/-- The main loop's receiver has a change that it has not seen. -/
def TaskState.Unseen (s : TaskState) : Prop := ∃ r, s.rx = some r ∧ r.unseen s.chan = true

instance (s : TaskState) : Decidable s.Unseen :=
  match h : s.rx with
  | none => isFalse fun ⟨_, hr, _⟩ => by rw [h] at hr; cases hr
  | some r => decidable_of_iff (r.unseen s.chan = true)
      ⟨fun hu => ⟨r, h, hu⟩, fun ⟨r', hr, hu⟩ => by rw [h] at hr; cases hr; exact hu⟩

/-- The listener is about to send. -/
def TaskState.Sending (s : TaskState) : Prop := s.listener.map Listener.pc = some .sending

instance (s : TaskState) : Decidable s.Sending := inferInstanceAs (Decidable (_ = _))

/-- The main task has come to its loop, or is gone. -/
def MainPc.inLoop : MainPc → Bool
  | .parked | .cycle false _ | .stopped | .killed => true
  | _ => false

/-- Between the return of the startup cycle's `detect()` and `detector.changes()`. -/
def MainPc.inWindow : MainPc → Bool
  | .cycle true (.discovering _) | .cycle true (.updating _ _) | .cycle true .failed | .settingUp | .subscribing => true
  | _ => false

/-! ## What the steps leave alone -/

variable {cfg : Setup} {s t : TaskState}

/-- A step of the process is one of a process that is neither stopped nor killed. -/
theorem taskStep_cases {e : TaskEvent} (h : taskStep cfg s e = some t) : s.pc ≠ .killed ∧
    ((∃ m, e = .main m ∧ mainStep cfg s m = some t) ∨ (∃ l, e = .listener l ∧ listenerStep cfg s l = some t) ∨
      ∃ g, e = .signal g ∧ signalStep s g = some t) := by
  unfold taskStep at h
  split at h
  · cases h
  · rename_i hpc
    refine ⟨fun hk => hpc (Or.inr hk), ?_⟩
    cases e with
    | main m => exact Or.inl ⟨m, rfl, h⟩
    | listener l => exact Or.inr (Or.inl ⟨l, rfl, h⟩)
    | signal g => exact Or.inr (Or.inr ⟨g, rfl, h⟩)

/-- Signals reach the main task through `select!` only, or kill it. -/
theorem signalStep_frame {e : SignalEvent} (h : signalStep s e = some t) :
    t.cache = s.cache ∧ t.chan = s.chan ∧ t.rx = s.rx ∧ t.listener = s.listener ∧ t.noted = s.noted ∧
      (t.pc = s.pc ∨ t.pc = .killed) := by
  cases e with
  | sigterm =>
    cases h
    exact ⟨rfl, rfl, rfl, rfl, rfl, Or.inr rfl⟩
  | sigint | sigusr1 =>
    simp only [signalStep] at h
    split at h
    · cases h
      exact ⟨rfl, rfl, rfl, rfl, rfl, Or.inl rfl⟩
    · cases h
      exact ⟨rfl, rfl, rfl, rfl, rfl, Or.inr rfl⟩
  | listenInt | listenUsr1 | cancel | notifyOne =>
    simp only [signalStep] at h
    split at h
    · cases h
      exact ⟨rfl, rfl, rfl, rfl, rfl, Or.inl rfl⟩
    · cases h

/-- The listener reaches the main task through the channel only. Its steps other than sending leave the channel and the
note of a pending change as they are. -/
theorem listenerStep_frame {e : ListenerEvent} (h : listenerStep cfg s e = some t) :
    t.pc = s.pc ∧ t.rx = s.rx ∧ t.cache = s.cache ∧ t.noted.startupDetected = s.noted.startupDetected ∧
      ((e = .send ∧ t.chan = s.chan.send ∧ t.noted.pending = (s.noted.pending || s.noted.startupDetected)) ∨
        (e ≠ .send ∧ t.chan = s.chan ∧ t.noted.pending = s.noted.pending)) := by
  unfold listenerStep at h
  split at h
  · cases h
  · split at h
    · cases h
      exact ⟨rfl, rfl, rfl, rfl, Or.inr ⟨by simp, rfl, rfl⟩⟩
    · split at h
      · split at h <;> cases h <;> exact ⟨rfl, rfl, rfl, rfl, Or.inr ⟨by simp, rfl, rfl⟩⟩
      · cases h
        exact ⟨rfl, rfl, rfl, rfl, Or.inr ⟨by simp, rfl, rfl⟩⟩
    · cases h
      exact ⟨rfl, rfl, rfl, rfl, Or.inr ⟨by simp, rfl, rfl⟩⟩
    · cases h
      exact ⟨rfl, rfl, rfl, rfl, Or.inr ⟨by simp, rfl, rfl⟩⟩
    · cases h
      exact ⟨rfl, rfl, rfl, rfl, Or.inl ⟨rfl, rfl, rfl⟩⟩
    · cases h

/-- The steps of the main task, each with the place it starts from and the state it leads to. -/
inductive MainCase (cfg : Setup) (s : TaskState) : MainEvent → TaskState → Prop
  | spawnListener (hpc : s.pc = .start) : MainCase cfg s .spawnListener
      { s with pc := .building, chan := Watch.channel.1, listener := some ⟨.idle, none⟩ }
  | newReturns (hpc : s.pc = .building) : MainCase cfg s .newReturns
      { s with pc := .built, chan := s.chan.dropReceiver }
  | seedHosts (discovered : Option (List HostEntry)) (hpc : s.pc = .built) : MainCase cfg s (.seedHosts discovered)
      { s with pc := .seeding (allSuffixes cfg.staticSuffixes (discovered.getD [])) }
  | seedRecord (answer : Except Error (Option Ipv6Addr)) (e : Ipv6Addr × String) (todo : List (Ipv6Addr × String))
      (hpc : s.pc = .seeding (e :: todo)) : MainCase cfg s (.seedRecord answer)
      { s with pc := .seeding todo, cache := (seedCache (answering (.ok ()) answer) [e] ⟨s.cache, ()⟩).cache }
  | startupCycle (hpc : s.pc = .seeding []) : MainCase cfg s .startupCycle { s with pc := .cycle true .called }
  | callDetect (startup : Bool) (hpc : s.pc = .cycle startup .called) : MainCase cfg s .callDetect
      { s with pc := .cycle startup .detecting, noted := { s.noted with pending := false } }
  | detectReturns (answers : Answers) (startup : Bool) (c : CyclePc) (hpc : s.pc = .cycle startup .detecting)
      (ok : ∀ p, detect cfg.method (s.listener.bind Listener.last) answers = .ok p → c = .discovering p)
      (error : ∀ e, detect cfg.method (s.listener.bind Listener.last) answers = .error e → c = .failed) :
      MainCase cfg s (.detectReturns answers)
        { s with pc := .cycle startup c, noted := { s.noted with startupDetected := true } }
  | discovered (hosts : Option (List HostEntry)) (startup : Bool) (p : Ipv6Addr)
      (hpc : s.pc = .cycle startup (.discovering p)) : MainCase cfg s (.discovered hosts)
      { s with pc := .cycle startup (.updating p
        (collectSuffixes [] (allSuffixes cfg.staticSuffixes (hosts.getD []))).2) }
  | host (outcome : Except Error Unit) (startup : Bool) (p suffix : Ipv6Addr) (domain : String)
      (todo : List (Ipv6Addr × String)) (hpc : s.pc = .cycle startup (.updating p ((suffix, domain) :: todo))) :
      MainCase cfg s (.host outcome)
        { s with
          pc := .cycle startup (.updating p todo)
          cache := (updateHost (answering outcome (.ok none)) (combine p suffix) domain ⟨s.cache, ()⟩).2.cache }
  | endCycle (startup : Bool) (c : CyclePc) (hpc : s.pc = .cycle startup c)
      (hc : c = .failed ∨ ∃ p, c = .updating p []) : MainCase cfg s .endCycle (s.leaveCycle startup)
  | spawnSignalTasks (hpc : s.pc = .settingUp) : MainCase cfg s .spawnSignalTasks
      { s with pc := .subscribing, signals := { s.signals with spawned := true } }
  | subscribe (hpc : s.pc = .subscribing) : MainCase cfg s .subscribe
      { s with pc := .parked, chan := s.chan.subscribe.1, rx := some s.chan.subscribe.2 }
  | changed (r r' : Watch.Receiver) (hpc : s.pc = .parked) (hr : s.rx = some r) (hc : r.changed s.chan = some r') :
      MainCase cfg s .changed { s with pc := .cycle false .called, rx := some r' }
  | notified (hpc : s.pc = .parked) (hp : s.signals.permit = true) : MainCase cfg s .notified
      { s with pc := .cycle false .called, signals := { s.signals with permit := false } }
  | cancelled (hpc : s.pc = .parked) (hc : s.signals.cancelled = true) : MainCase cfg s .cancelled
      { s with pc := .stopped }

/-- **The main task takes no other steps.** -/
theorem mainStep_cases {m : MainEvent} (h : mainStep cfg s m = some t) : MainCase cfg s m t := by
  unfold mainStep at h
  split at h <;> rename_i hpc
  -- the startup, until the startup cycle
  · cases h
    exact .spawnListener hpc
  · cases h
    exact .newReturns hpc
  · cases h
    exact .seedHosts _ hpc
  · cases h
    exact .seedRecord _ _ _ hpc
  · cases h
    exact .startupCycle hpc
  -- cycles, at startup and in the loop
  · cases h
    exact .callDetect _ hpc
  · cases h
    refine .detectReturns _ _ _ hpc (fun p hp => ?_) fun e he => ?_
    · rw [hp]
    · rw [he]
  · cases h
    exact .discovered _ _ _ hpc
  · cases h
    exact .host _ _ _ _ _ _ hpc
  · cases h
    exact .endCycle _ _ hpc (Or.inl rfl)
  · cases h
    exact .endCycle _ _ hpc (Or.inr ⟨_, rfl⟩)
  · cases h
    exact .spawnSignalTasks hpc
  -- the loop
  · cases h
    exact .subscribe hpc
  · obtain ⟨r', hr', rfl⟩ := Option.map_eq_some_iff.1 h
    obtain ⟨r, hr, hc⟩ := Option.bind_eq_some_iff.1 hr'
    exact .changed r r' hpc hr hc
  · split at h
    · rename_i hp
      cases h
      exact .notified hpc hp
    · cases h
  · split at h
    · rename_i hc
      cases h
      exact .cancelled hpc hc
    · cases h
  · cases h

/-- What a step of the main task can do, as far as the other tasks are concerned. -/
inductive MainEffect (s t : TaskState) : MainEvent → Prop
  /-- A step before the loop, which is not yet subscribed. -/
  | startup {m : MainEvent} (before : s.pc.inLoop = false) (after : t.pc.inLoop = false) (moved : t.pc ≠ .start)
      (rx : t.rx = s.rx)
      (stays : s.pc.inWindow = true → t.pc.inWindow = true)
      (detected : t.noted.startupDetected = true → s.noted.startupDetected = true ∨ t.pc.inWindow = true)
      (pending : t.noted.pending = s.noted.pending ∨ s.pc = .cycle true .called ∧ t.noted.pending = false)
      (listener : t.listener = s.listener ∨ s.pc = .start)
      (lastPoll : t.noted.lastPoll = s.noted.lastPoll ∨ t.noted.lastPoll = none) : MainEffect s t m
  | subscribe (before : s.pc = .subscribing)
      (after : t = { s with pc := .parked, chan := s.chan.subscribe.1, rx := some s.chan.subscribe.2 }) :
      MainEffect s t .subscribe
  | callDetect (before : s.pc = .cycle false .called)
      (after : t = { s with pc := .cycle false .detecting, noted := { s.noted with pending := false } }) :
      MainEffect s t .callDetect
  /-- A step inside a cycle of the loop. -/
  | cycle {m : MainEvent} {c c' : CyclePc} (before : s.pc = .cycle false c) (after : t.pc = .cycle false c')
      (called : c ≠ .called) (rx : t.rx = s.rx) (chan : t.chan = s.chan) (listener : t.listener = s.listener)
      (pending : t.noted.pending = s.noted.pending) (lastPoll : t.noted.lastPoll = s.noted.lastPoll) : MainEffect s t m
  | endCycle {c : CyclePc} (before : s.pc = .cycle false c) (called : c ≠ .called) (after : t = s.leaveCycle false) :
      MainEffect s t .endCycle
  /-- `select!` starts a cycle. -/
  | wake {m : MainEvent} (before : s.pc = .parked) (after : t.pc = .cycle false .called)
      (rx : t.rx = s.rx ∨ ∃ r r', s.rx = some r ∧ r.changed s.chan = some r' ∧ t.rx = some r') (chan : t.chan = s.chan)
      (listener : t.listener = s.listener) (noted : t.noted = s.noted) : MainEffect s t m
  | stop (before : s.pc = .parked) (after : t = { s with pc := .stopped }) : MainEffect s t .cancelled

/-- A step before the loop that leaves the listener and the notes alone. -/
theorem MainEffect.quiet {m : MainEvent} (before : s.pc.inLoop = false) (after : t.pc.inLoop = false)
    (moved : t.pc ≠ .start) (stays : s.pc.inWindow = true → t.pc.inWindow = true) (rx : t.rx = s.rx)
    (listener : t.listener = s.listener) (noted : t.noted = s.noted) : MainEffect s t m :=
  .startup before after moved rx stays (fun h => Or.inl (noted ▸ h)) (Or.inl (by rw [noted])) (Or.inl listener)
    (Or.inl (by rw [noted]))

/-- **The steps of the main task**, sorted by their effects. -/
theorem mainStep_effect {m : MainEvent} (h : mainStep cfg s m = some t) : MainEffect s t m := by
  have early : s.pc.inWindow = false → s.pc.inWindow = true → t.pc.inWindow = true := by
    intro hpc hw
    rw [hpc] at hw
    cases hw
  cases mainStep_cases h with
  | spawnListener hpc =>
    exact .startup (by rw [hpc]; rfl) rfl (by simp) rfl (early (by rw [hpc]; rfl)) Or.inl (Or.inl rfl) (Or.inr hpc)
      (Or.inl rfl)
  | newReturns hpc => exact .quiet (by rw [hpc]; rfl) rfl (by simp) (early (by rw [hpc]; rfl)) rfl rfl rfl
  | seedHosts discovered hpc => exact .quiet (by rw [hpc]; rfl) rfl (by simp) (early (by rw [hpc]; rfl)) rfl rfl rfl
  | seedRecord answer e todo hpc =>
    exact .quiet (by rw [hpc]; rfl) rfl (by simp) (early (by rw [hpc]; rfl)) rfl rfl rfl
  | startupCycle hpc => exact .quiet (by rw [hpc]; rfl) rfl (by simp) (early (by rw [hpc]; rfl)) rfl rfl rfl
  -- cycles, at startup and in the loop
  | callDetect startup hpc =>
    cases startup with
    | true =>
      exact .startup (by rw [hpc]; rfl) rfl (by simp) rfl (early (by rw [hpc]; rfl)) Or.inl (Or.inr ⟨hpc, rfl⟩)
        (Or.inl rfl) (Or.inl rfl)
    | false => exact .callDetect hpc rfl
  | detectReturns answers startup c hpc ok error =>
    cases startup with
    | true =>
      refine .startup (by rw [hpc]; rfl) rfl (by simp) rfl (early (by rw [hpc]; rfl)) (fun _ => Or.inr ?_) (Or.inl rfl)
        (Or.inl rfl) (Or.inl rfl)
      cases hd : detect cfg.method (s.listener.bind Listener.last) answers with
      | ok p =>
        obtain rfl := ok p hd
        rfl
      | error e =>
        obtain rfl := error e hd
        rfl
    | false => exact .cycle hpc rfl (by simp) rfl rfl rfl rfl rfl
  | discovered hosts startup p hpc =>
    cases startup with
    | true => exact .quiet (by rw [hpc]; rfl) rfl (by simp) (fun _ => rfl) rfl rfl rfl
    | false => exact .cycle hpc rfl (by simp) rfl rfl rfl rfl rfl
  | host outcome startup p suffix domain todo hpc =>
    cases startup with
    | true => exact .quiet (by rw [hpc]; rfl) rfl (by simp) (fun _ => rfl) rfl rfl rfl
    | false => exact .cycle hpc rfl (by simp) rfl rfl rfl rfl rfl
  | endCycle startup c hpc hc =>
    cases startup with
    | true =>
      exact .startup (by rw [hpc]; rfl) rfl (by simp [TaskState.leaveCycle]) rfl (fun _ => rfl) Or.inl (Or.inl rfl)
        (Or.inl rfl) (Or.inr rfl)
    | false =>
      have called : c ≠ .called := by
        rintro rfl
        simp at hc
      exact .endCycle hpc called rfl
  | spawnSignalTasks hpc => exact .quiet (by rw [hpc]; rfl) rfl (by simp) (fun _ => rfl) rfl rfl rfl
  -- the loop
  | subscribe hpc => exact .subscribe hpc rfl
  | changed r r' hpc hr hc => exact .wake hpc rfl (Or.inr ⟨r, r', hr, hc, rfl⟩) rfl rfl rfl
  | notified hpc hp => exact .wake hpc rfl (Or.inl rfl) rfl rfl rfl
  | cancelled hpc hc => exact .stop hpc rfl

/-! ## The receiver of the main loop -/

/-- In the loop the main task has a receiver of the channel, before it has none. -/
structure ReceiverInv (s : TaskState) : Prop where
  receiver : ∀ r, s.rx = some r → r.Of s.chan
  early : s.pc.inLoop = false → s.rx = none
  subscribed : s.pc.inLoop = true → s.pc ≠ .killed → s.rx ≠ none

theorem receiverInv_init : ReceiverInv .init := by
  constructor
  · intro r hr
    cases hr
  · intro _
    rfl
  · intro hloop
    cases hloop

/-- Nothing is unseen without a receiver. -/
theorem not_unseen_of_none (h : s.rx = none) : ¬s.Unseen := by
  rintro ⟨r, hr, _⟩
  rw [h] at hr
  cases hr

/-- Being unseen is a matter of the receiver and the channel. -/
theorem unseen_congr (hrx : t.rx = s.rx) (hchan : t.chan = s.chan) : t.Unseen ↔ s.Unseen := by
  unfold TaskState.Unseen
  rw [hrx, hchan]

/-- A change that is sent to the main loop is unseen. -/
theorem unseen_of_send (hi : ReceiverInv s) (hne : s.rx ≠ none) (hrx : t.rx = s.rx) (hchan : t.chan = s.chan.send) :
    t.Unseen := by
  obtain ⟨r, hr⟩ := Option.ne_none_iff_exists'.1 hne
  refine ⟨r, hrx.trans hr, ?_⟩
  rw [hchan]
  exact Watch.unseen_send (hi.receiver r hr)

/-- The invariant goes along with the receiver and the channel, inside the loop. -/
theorem ReceiverInv.of_loop (hi : ReceiverInv s) (hloop : s.pc.inLoop = true) (hlive : s.pc ≠ .killed)
    (hloop' : t.pc.inLoop = true) (hrx : t.rx = s.rx) (hchan : t.chan = s.chan) : ReceiverInv t := by
  constructor
  · rw [hrx, hchan]
    exact hi.receiver
  · intro h
    rw [hloop'] at h
    cases h
  · intro _ _
    rw [hrx]
    exact hi.subscribed hloop hlive

theorem receiverInv_main {m : MainEvent} (hi : ReceiverInv s) (hlive : s.pc ≠ .killed)
    (h : mainStep cfg s m = some t) : ReceiverInv t := by
  cases mainStep_effect h with
  | startup before after _ rx _ _ _ _ _ =>
    have hnone : t.rx = none := rx.trans (hi.early before)
    constructor
    · intro r hr
      rw [hnone] at hr
      cases hr
    · exact fun _ => hnone
    · intro hloop
      rw [after] at hloop
      cases hloop
  | subscribe before after =>
    subst after
    constructor
    · intro r hr
      cases hr
      exact Watch.of_subscribe s.chan
    · intro hloop
      cases hloop
    · exact fun _ _ => Option.some_ne_none _
  | callDetect before after =>
    subst after
    exact hi.of_loop (by rw [before]; rfl) hlive rfl rfl rfl
  | cycle before after _ rx chan _ _ _ => exact hi.of_loop (by rw [before]; rfl) hlive (by rw [after]; rfl) rx chan
  | endCycle before _ after =>
    subst after
    exact hi.of_loop (by rw [before]; rfl) hlive rfl rfl rfl
  | wake before after rx chan _ _ =>
    rcases rx with rx | ⟨r, r', hr, hc, rx⟩
    · exact hi.of_loop (by rw [before]; rfl) hlive (by rw [after]; rfl) rx chan
    · constructor
      · intro r'' hr''
        rw [rx] at hr''
        cases hr''
        rw [chan]
        exact Watch.of_changed (hi.receiver r hr) hc
      · intro hloop
        rw [after] at hloop
        cases hloop
      · intro _ _
        rw [rx]
        exact Option.some_ne_none _
  | stop before after =>
    subst after
    exact hi.of_loop (by rw [before]; rfl) hlive rfl rfl rfl

/-- **Every step keeps the receiver.** -/
theorem receiverInv_step {e : TaskEvent} (hi : ReceiverInv s) (h : taskStep cfg s e = some t) : ReceiverInv t := by
  obtain ⟨hlive, ⟨m, _, hm⟩ | ⟨l, _, hl⟩ | ⟨g, _, hg⟩⟩ := taskStep_cases h
  · exact receiverInv_main hi hlive hm
  · obtain ⟨hpc, hrx, _, _, hchan⟩ := listenerStep_frame hl
    refine ⟨fun r hr => ?_, by rw [hpc, hrx]; exact hi.early, by rw [hpc, hrx]; exact hi.subscribed⟩
    have hof := hi.receiver r (hrx.symm.trans hr)
    rcases hchan with ⟨_, hchan, _⟩ | ⟨_, hchan, _⟩ <;> rw [hchan]
    · exact Watch.of_send hof
    · exact hof
  · obtain ⟨_, hchan, hrx, _, _, hpc⟩ := signalStep_frame hg
    refine ⟨by rw [hrx, hchan]; exact hi.receiver, fun hloop => ?_, fun hloop hk => ?_⟩
    · rcases hpc with hpc | hpc <;> rw [hpc] at hloop
      · exact hrx.trans (hi.early hloop)
      · cases hloop
    · rcases hpc with hpc | hpc
      · rw [hpc] at hloop hk
        rw [hrx]
        exact hi.subscribed hloop hk
      · exact absurd hpc hk

/-! ## The cycles of the main task are update cycles -/

/-- The main task in a host loop, with the hosts that are left and the cache. -/
def TaskState.atHosts (s : TaskState) (startup : Bool) (p : Ipv6Addr) (todo : List (Ipv6Addr × String))
    (cache : Cache String Ipv6Addr) : TaskState :=
  { s with pc := .cycle startup (.updating p todo), cache := cache }

/-- One host: the step for the outcome that an updater gives does what `updateHost` does with this updater. -/
theorem host_step {σ : Type*} (cfg : Setup) (u : DnsUpdater σ) (p suffix : Ipv6Addr) (domain : String)
    (todo : List (Ipv6Addr × String)) (startup : Bool) (s : TaskState) (d : Daemon σ) :
    taskStep cfg (s.atHosts startup p ((suffix, domain) :: todo) d.cache)
        (.main (.host (u.setRecord domain (combine p suffix) d.store).1)) =
      some (s.atHosts startup p todo (updateHost u (combine p suffix) domain d).2.cache) := by
  have hhost : (updateHost (answering (u.setRecord domain (combine p suffix) d.store).1 (.ok none)) (combine p suffix)
      domain ⟨d.cache, ()⟩).2.cache = (updateHost u (combine p suffix) domain d).2.cache := by
    simp only [updateHost, answering]
    split
    · rfl
    · rcases u.setRecord domain (combine p suffix) d.store with ⟨_ | _, w⟩ <;> rfl
  simp only [taskStep, TaskState.atHosts, mainStep, reduceCtorEq, or_self, if_false, hhost]

/-- **The host loop in steps**: what `updateHosts` does with an updater, the main task does step by step, for the
outcomes that this updater gives. -/
theorem hosts_run {σ : Type*} (cfg : Setup) (u : DnsUpdater σ) (p : Ipv6Addr) (startup : Bool) (s : TaskState) :
    ∀ (todo : List (Ipv6Addr × String)) (n : Nat) (d : Daemon σ), ∃ es,
      run (taskStep cfg) (s.atHosts startup p todo d.cache) es =
        some (s.atHosts startup p [] (updateHosts u p todo n d).2.2.cache)
  | [], _, _ => ⟨[], rfl⟩
  | (suffix, domain) :: todo, n, d => by
    obtain ⟨es, hes⟩ := hosts_run cfg u p startup s todo n (updateHost u (combine p suffix) domain d).2
    refine ⟨.main (.host (u.setRecord domain (combine p suffix) d.store).1) :: es, ?_⟩
    rw [run, host_step, Option.bind_some, hes]
    simp only [updateHosts_eq_pass, updateHost_eq_put, targets, List.map_cons, pass_cons]

/-- **A cycle in steps.** When the answers of its source make the detector return `detected`, a cycle of the main task
can go to its end, and the cache is then that of `runUpdateCycle` with any given updater. -/
theorem cycle_run {σ : Type*} (cfg : Setup) (u : DnsUpdater σ) (startup : Bool) (s : TaskState) (answers : Answers)
    (discovered : Option (List HostEntry)) (d : Daemon σ) (hpc : s.pc = .cycle startup .called)
    (hcache : s.cache = d.cache) : ∃ es t, run (taskStep cfg) s es = some t ∧
      t.pc = (if startup then .settingUp else .parked) ∧
      t.cache = (runUpdateCycle u (detect cfg.method (s.listener.bind Listener.last) answers) cfg.staticSuffixes
        discovered d).state.cache := by
  cases hd : detect cfg.method (s.listener.bind Listener.last) answers with
  | error e =>
    refine ⟨[.main .callDetect, .main (.detectReturns answers), .main .endCycle],
      { s with noted := ⟨true, false, s.noted.pollFresh, s.noted.lastPoll⟩ }.leaveCycle startup, ?_, rfl, hcache⟩
    simp only [run, taskStep, mainStep, hpc, reduceCtorEq, or_self, if_false, Option.bind_some, hd]
    rfl
  | ok p =>
    have hbegin : run (taskStep cfg) s
          [.main .callDetect, .main (.detectReturns answers), .main (.discovered discovered)] =
        some ({ s with noted := ⟨true, false, s.noted.pollFresh, s.noted.lastPoll⟩ }.atHosts startup p
          (allSuffixes cfg.staticSuffixes (discovered.getD [])) d.cache) := by
      simp only [run, taskStep, mainStep, hpc, reduceCtorEq, or_self, if_false, Option.bind_some, hd,
        collectSuffixes_snd, ← hcache]
      rfl
    obtain ⟨es, hes⟩ := hosts_run cfg u p startup
      { s with noted := ⟨true, false, s.noted.pollFresh, s.noted.lastPoll⟩ }
      (allSuffixes cfg.staticSuffixes (discovered.getD [])) 0 d
    refine ⟨_, _, run_append hbegin (run_append hes (show run _ _ [.main .endCycle] = _ from rfl)), rfl, ?_⟩
    simp only [runUpdateCycle, collectSuffixes_snd]
    rfl

end DdnsIpv6

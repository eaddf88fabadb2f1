import DdnsIpv6.Tasks.Notify

/-!
# Shutdown

An observer beside the tasks (`Watched`) notes when a SIGINT or SIGTERM has been handled, which hosts the running cycle
has processed, whether a cycle is started after that and whether one is cut short. A shutdown is `Graceful` if neither
happens and the cycle in progress runs to its end. It is in every run whose steps are `Orderly`
(`graceful_of_orderly`): a SIGTERM comes between cycles only, for which no handler exists, and `select!`, which may
take any ready branch, finds nothing but the cancellation to take. Other steps lead to an ungraceful one,
so that the condition is exact (`orderly_exact`).
-/

namespace DdnsIpv6

open Lib

/-! ## The observer -/

/-- The notes on a shutdown. -/
structure ShutdownNotes where
  /-- With the handlers installed, a SIGINT or SIGTERM was handled. -/
  handled : Bool
  /-- The hosts of the cycle that was started last, once they are known. -/
  hosts : List (Ipv6Addr × String)
  processed : List (Ipv6Addr × String)
  /-- After the signal a cycle was started. -/
  restarted : Bool
  /-- After the signal a cycle was left with hosts that were not processed, or was killed. -/
  cutShort : Bool
  deriving DecidableEq, Repr

/-- The main task is in a cycle of its loop. -/
def MainPc.inCycle : MainPc → Bool
  | .cycle false _ => true
  | _ => false

/-- The hosts that are left, once they are known. -/
def CyclePc.todo : CyclePc → Option (List (Ipv6Addr × String))
  | .updating _ todo => some todo
  | _ => none

def MainPc.todo : MainPc → List (Ipv6Addr × String)
  | .cycle _ c => c.todo.getD []
  | _ => []

def Signals.installed (g : Signals) : Bool := g.intListening && g.usr1Listening

/-- The observer after a step of the main task from `s` to `t`. -/
def ShutdownNotes.afterMain (n : ShutdownNotes) (s t : TaskState) : MainEvent → ShutdownNotes
  | .changed | .notified => { n with hosts := [], processed := [], restarted := n.restarted || n.handled }
  | .discovered _ => { n with hosts := t.pc.todo }
  | .host _ => { n with processed := n.processed ++ s.pc.todo.take 1 }
  | .endCycle => { n with cutShort := n.cutShort || (n.handled && s.pc.inCycle && n.processed != n.hosts) }
  | _ => n

/-- The signals of a shutdown, as they are handled: SIGINT by its task, SIGTERM by its default action. -/
def SignalEvent.shutsDown : SignalEvent → Bool
  | .cancel | .sigterm => true
  | _ => false

/-- The observer after a signal step from `s` to `t`. -/
def ShutdownNotes.afterSignal (n : ShutdownNotes) (s t : TaskState) (g : SignalEvent) : ShutdownNotes :=
  let handled := n.handled || (s.signals.installed && g.shutsDown)
  { n with handled := handled, cutShort := n.cutShort || (handled && s.pc.inCycle && !t.pc.inCycle) }

/-- The process and the observer. -/
structure Watched where
  task : TaskState
  notes : ShutdownNotes

def Watched.init : Watched := ⟨.init, ⟨false, [], [], false, false⟩⟩

def ShutdownNotes.after (n : ShutdownNotes) (s t : TaskState) : TaskEvent → ShutdownNotes
  | .main m => n.afterMain s t m
  | .listener _ => n
  | .signal g => n.afterSignal s t g

/-- A step of the process, and what the observer notes. -/
def watchedStep (cfg : Setup) (w : Watched) (e : TaskEvent) : Option Watched :=
  (taskStep cfg w.task e).map fun t => ⟨t, w.notes.after w.task t e⟩

/-- Whatever the outcomes of its calls are, the steps of the main task lead to the end of the cycle, with all hosts
processed. -/
inductive RunsToEnd (cfg : Setup) : Watched → Prop
  | ended {w : Watched} (hpc : w.task.pc = .parked) (hall : w.notes.processed = w.notes.hosts) : RunsToEnd cfg w
  | step {w : Watched} (hcan : ∃ m w', watchedStep cfg w (.main m) = some w')
      (hall : ∀ m w', watchedStep cfg w (.main m) = some w' → RunsToEnd cfg w') : RunsToEnd cfg w

/-- **A graceful shutdown.** -/
structure Graceful (cfg : Setup) (w : Watched) : Prop where
  noRestart : w.notes.restarted = false
  complete : w.notes.cutShort = false
  runsToEnd : w.notes.handled = true → w.task.pc.inCycle = true → RunsToEnd cfg w

def TaskEvent.isSigterm : TaskEvent → Bool
  | .signal .sigterm => true
  | _ => false

def TaskEvent.isMain : TaskEvent → Bool
  | .main _ => true
  | _ => false

/-- No SIGTERM is delivered in a cycle of the loop, and when `select!` takes a branch after the signal, there is no
unseen change and no permit of a SIGUSR1. -/
def Orderly (w : Watched) (e : TaskEvent) : Prop :=
  (w.task.pc.inCycle = true → e.isSigterm = false) ∧
  (e.isMain = true → w.notes.handled = true → w.task.pc = .parked → ¬w.task.Unseen ∧ w.task.signals.permit = false)

instance (w : Watched) (e : TaskEvent) : Decidable (Orderly w e) := inferInstanceAs (Decidable (_ ∧ _))

/-! ## The steps -/

variable {cfg : Setup} {s t : TaskState}

theorem watchedStep_eq_some {w w' : Watched} {e : TaskEvent} (h : watchedStep cfg w e = some w') :
    ∃ t, taskStep cfg w.task e = some t ∧ w' = ⟨t, w.notes.after w.task t e⟩ := by
  obtain ⟨t, ht, rfl⟩ := Option.map_eq_some_iff.1 h
  exact ⟨t, ht, rfl⟩

/-- What a step of the main task does to the cycles of the loop. -/
inductive LoopStep (s t : TaskState) : MainEvent → Prop
  | outside {m : MainEvent} (hs : s.pc.inCycle = false) (ht : t.pc.inCycle = false)
      (hm : m ≠ .changed ∧ m ≠ .notified) : LoopStep s t m
  | start {m : MainEvent} (hs : s.pc = .parked) (ht : t.pc = .cycle false .called)
      (hm : m = .changed ∧ s.Unseen ∨ m = .notified ∧ s.signals.permit = true) : LoopStep s t m
  | callDetect (hs : s.pc = .cycle false .called) (ht : t.pc = .cycle false .detecting) : LoopStep s t .callDetect
  | detectReturns {c : CyclePc} (answers : Answers) (hs : s.pc = .cycle false .detecting)
      (ht : t.pc = .cycle false c) (hc : c = .failed ∨ ∃ p, c = .discovering p) :
      LoopStep s t (.detectReturns answers)
  | discovered {p : Ipv6Addr} (hosts : Option (List HostEntry)) (todo : List (Ipv6Addr × String))
      (hs : s.pc = .cycle false (.discovering p)) (ht : t.pc = .cycle false (.updating p todo)) :
      LoopStep s t (.discovered hosts)
  | host {p : Ipv6Addr} {h : Ipv6Addr × String} {todo : List (Ipv6Addr × String)} (outcome : Except Error Unit)
      (hs : s.pc = .cycle false (.updating p (h :: todo))) (ht : t.pc = .cycle false (.updating p todo)) :
      LoopStep s t (.host outcome)
  | endCycle {c : CyclePc} (hs : s.pc = .cycle false c) (hc : c = .failed ∨ ∃ p, c = .updating p [])
      (ht : t.pc = .parked) : LoopStep s t .endCycle

/-- A step that starts somewhere else and stays there. -/
theorem LoopStep.of_pc {m : MainEvent} {pc : MainPc} (hpc : s.pc = pc) (hs : pc.inCycle = false)
    (ht : t.pc.inCycle = false) (hm : m ≠ .changed ∧ m ≠ .notified) : LoopStep s t m :=
  .outside (by rw [hpc]; exact hs) ht hm

theorem mainStep_loopStep {m : MainEvent} (h : mainStep cfg s m = some t) : LoopStep s t m := by
  cases mainStep_cases h with
  | spawnListener hpc => exact .of_pc hpc rfl rfl (by simp)
  | newReturns hpc => exact .of_pc hpc rfl rfl (by simp)
  | seedHosts discovered hpc => exact .of_pc hpc rfl rfl (by simp)
  | seedRecord answer e todo hpc => exact .of_pc hpc rfl rfl (by simp)
  | startupCycle hpc => exact .of_pc hpc rfl rfl (by simp)
  -- cycles, at startup and in the loop
  | callDetect startup hpc =>
    cases startup with
    | true => exact .of_pc hpc rfl rfl (by simp)
    | false => exact .callDetect hpc rfl
  | detectReturns answers startup c hpc ok error =>
    cases startup with
    | true => exact .of_pc hpc rfl rfl (by simp)
    | false =>
      refine .detectReturns answers hpc rfl ?_
      cases hd : detect cfg.method (s.listener.bind Listener.last) answers with
      | ok p => exact Or.inr ⟨p, ok p hd⟩
      | error e => exact Or.inl (error e hd)
  | discovered hosts startup p hpc =>
    cases startup with
    | true => exact .of_pc hpc rfl rfl (by simp)
    | false => exact .discovered hosts _ hpc rfl
  | host outcome startup p suffix domain todo hpc =>
    cases startup with
    | true => exact .of_pc hpc rfl rfl (by simp)
    | false => exact .host outcome hpc rfl
  | endCycle startup c hpc hc =>
    cases startup with
    | true => exact .of_pc hpc rfl rfl (by simp)
    | false => exact .endCycle hpc hc rfl
  | spawnSignalTasks hpc => exact .of_pc hpc rfl rfl (by simp)
  -- the loop
  | subscribe hpc => exact .of_pc hpc rfl rfl (by simp)
  | changed r r' hpc hr hc => exact .start hpc rfl (Or.inl ⟨rfl, r, hr, (Watch.changed_eq_some.1 hc).1⟩)
  | notified hpc hp => exact .start hpc rfl (Or.inr ⟨rfl, hp⟩)
  | cancelled hpc hc => exact .of_pc hpc rfl rfl (by simp)

theorem mainStep_installed {m : MainEvent} (h : mainStep cfg s m = some t) :
    t.signals.installed = s.signals.installed := by
  cases mainStep_cases h <;> rfl

theorem listenerStep_signals {l : ListenerEvent} (h : listenerStep cfg s l = some t) : t.signals = s.signals := by
  unfold listenerStep at h
  split at h
  · cases h
  · split at h
    · cases h
      rfl
    · split at h
      · split at h <;> cases h <;> rfl
      · cases h
        rfl
    · cases h
      rfl
    · cases h
      rfl
    · cases h
      rfl
    · cases h

/-- A signal that comes with the handlers installed leaves them so, and the main task where it is, unless it is a
SIGTERM. -/
theorem signalStep_installed {g : SignalEvent} (h : signalStep s g = some t) (hi : s.signals.installed = true) :
    t.signals.installed = true ∧ (g = .sigterm ∧ t.pc = .killed ∨ g ≠ .sigterm ∧ t.pc = s.pc) := by
  rw [Signals.installed, Bool.and_eq_true] at hi
  cases g with
  | sigterm =>
    cases h
    exact ⟨by simp [Signals.installed, hi], Or.inl ⟨rfl, rfl⟩⟩
  | sigint =>
    simp only [signalStep, hi.1, if_true, Option.some.injEq] at h
    subst h
    exact ⟨by simp [Signals.installed, hi], Or.inr ⟨by simp, rfl⟩⟩
  | sigusr1 =>
    simp only [signalStep, hi.2, if_true, Option.some.injEq] at h
    subst h
    exact ⟨by simp [Signals.installed, hi], Or.inr ⟨by simp, rfl⟩⟩
  | listenInt | listenUsr1 | cancel | notifyOne =>
    simp only [signalStep] at h
    split at h
    · cases h
      exact ⟨by simp [Signals.installed, hi], Or.inr ⟨by simp, rfl⟩⟩
    · cases h

/-- The handlers stay installed. -/
theorem taskStep_installed {e : TaskEvent} (h : taskStep cfg s e = some t) (hi : s.signals.installed = true) :
    t.signals.installed = true := by
  obtain ⟨-, ⟨m, -, hm⟩ | ⟨l, -, hl⟩ | ⟨g, -, hg⟩⟩ := taskStep_cases h
  · exact (mainStep_installed hm).trans hi
  · rw [listenerStep_signals hl]
    exact hi
  · exact (signalStep_installed hg hi).1

/-! ## Orderly steps -/

/-- The notes on a cycle: what is processed and what is left make up its hosts. -/
def HostsNoted (n : ShutdownNotes) : CyclePc → Prop
  | .updating _ todo => n.processed ++ todo = n.hosts
  | _ => n.hosts = [] ∧ n.processed = []

/-- What orderly steps keep. -/
structure ShutdownInv (w : Watched) : Prop where
  noRestart : w.notes.restarted = false
  complete : w.notes.cutShort = false
  installed : w.notes.handled = true → w.task.signals.installed = true
  hosts : ∀ c, w.task.pc = .cycle false c → HostsNoted w.notes c

theorem shutdownInv_init : ShutdownInv .init :=
  ⟨rfl, rfl, (fun h => nomatch h), (fun _ h => nomatch h)⟩

/-- The notes of a cycle, after a step of the main task. -/
theorem hostsNoted_main {n : ShutdownNotes} {m : MainEvent} (hn : ∀ c, s.pc = .cycle false c → HostsNoted n c)
    (h : LoopStep s t m) : ∀ c, t.pc = .cycle false c → HostsNoted (n.afterMain s t m) c := by
  cases h with
  | outside hs ht hm =>
    intro c hc
    rw [show t.pc = _ from hc] at ht
    cases ht
  | start hs ht hm =>
    intro c hc
    cases ht.symm.trans hc
    rcases hm with ⟨rfl, -⟩ | ⟨rfl, -⟩ <;> exact ⟨rfl, rfl⟩
  | callDetect hs ht =>
    intro c hc
    have hnoted : HostsNoted n .called := hn _ hs
    cases ht.symm.trans hc
    exact hnoted
  | detectReturns answers hs ht hc =>
    intro c' hc'
    have hnoted : HostsNoted n .detecting := hn _ hs
    cases ht.symm.trans hc'
    rcases hc with rfl | ⟨p, rfl⟩ <;> exact hnoted
  | discovered hosts todo hs ht =>
    intro c hc
    obtain ⟨-, hnone⟩ : n.hosts = [] ∧ n.processed = [] := hn _ hs
    cases ht.symm.trans hc
    simp only [HostsNoted, ShutdownNotes.afterMain, hnone, ht, MainPc.todo, CyclePc.todo, Option.getD_some,
      List.nil_append]
  | @host p host todo outcome hs ht =>
    intro c hc
    have hnoted : n.processed ++ host :: todo = n.hosts := hn _ hs
    cases ht.symm.trans hc
    simp only [HostsNoted, ShutdownNotes.afterMain, hs, MainPc.todo, CyclePc.todo, Option.getD_some,
      List.take_succ_cons, List.take_zero, ← hnoted, List.append_assoc, List.singleton_append]
  | endCycle hs hc ht =>
    intro c hc
    cases ht.symm.trans hc

/-- A cycle ends with all hosts processed. -/
theorem processed_of_end {n : ShutdownNotes} {c : CyclePc} (hn : HostsNoted n c)
    (hc : c = .failed ∨ ∃ p, c = .updating p []) : n.processed = n.hosts := by
  rcases hc with rfl | ⟨p, rfl⟩
  · obtain ⟨hhosts, hprocessed⟩ : n.hosts = [] ∧ n.processed = [] := hn
    rw [hhosts, hprocessed]
  · have hnoted : n.processed ++ [] = n.hosts := hn
    rwa [List.append_nil] at hnoted

/-- No note of a restart or of a cycle cut short, unless `select!` starts a cycle after the signal. -/
theorem afterMain_quiet {n : ShutdownNotes} {m : MainEvent} (hn : ∀ c, s.pc = .cycle false c → HostsNoted n c)
    (h : LoopStep s t m) (hstart : m = .changed ∨ m = .notified → n.handled = false) :
    (n.afterMain s t m).handled = n.handled ∧ (n.afterMain s t m).restarted = n.restarted ∧
      (n.afterMain s t m).cutShort = n.cutShort := by
  have hrestarted : m = .changed ∨ m = .notified → (n.restarted || n.handled) = n.restarted := fun hm => by
    rw [hstart hm, Bool.or_false]
  have hcut : (m = .endCycle) → (n.cutShort || (n.handled && s.pc.inCycle && n.processed != n.hosts)) = n.cutShort := by
    rintro rfl
    cases h with
    | outside hs ht hm => rw [hs, Bool.and_false, Bool.false_and, Bool.or_false]
    | start hs ht hm => simp at hm
    | endCycle hs hc ht => rw [processed_of_end (hn _ hs) hc, bne_self_eq_false, Bool.and_false, Bool.or_false]
  cases m with
  | changed => exact ⟨rfl, hrestarted (Or.inl rfl), rfl⟩
  | notified => exact ⟨rfl, hrestarted (Or.inr rfl), rfl⟩
  | endCycle => exact ⟨rfl, rfl, hcut rfl⟩
  | _ => exact ⟨rfl, rfl, rfl⟩

/-- A step of the main task, where nothing else than the cancellation is ready after the signal. -/
theorem shutdownInv_main {n : ShutdownNotes} {m : MainEvent} (hi : ShutdownInv ⟨s, n⟩)
    (ho : n.handled = true → s.pc = .parked → ¬s.Unseen ∧ s.signals.permit = false)
    (h : mainStep cfg s m = some t) : ShutdownInv ⟨t, n.afterMain s t m⟩ := by
  have hstep := mainStep_loopStep h
  have hstart : m = .changed ∨ m = .notified → n.handled = false := by
    intro hm
    by_contra hh
    cases hstep with
    | start hs ht hready =>
      obtain ⟨hunseen, hpermit⟩ := ho (by simpa using hh) hs
      rcases hready with ⟨-, hu⟩ | ⟨-, hp⟩
      · exact hunseen hu
      · rw [hpermit] at hp
        cases hp
    | outside hs ht hne => exact hm.elim hne.1 hne.2
    | callDetect | detectReturns | discovered | host | endCycle => simp at hm
  obtain ⟨hhandled, hrestarted, hcut⟩ := afterMain_quiet hi.hosts hstep hstart
  exact ⟨hrestarted.trans hi.noRestart, hcut.trans hi.complete,
    fun hh => (mainStep_installed h).trans (hi.installed (hhandled ▸ hh)), hostsNoted_main hi.hosts hstep⟩

/-- A signal that is no SIGTERM in a cycle. -/
theorem shutdownInv_signal {n : ShutdownNotes} {g : SignalEvent} (hi : ShutdownInv ⟨s, n⟩)
    (ho : s.pc.inCycle = true → g ≠ .sigterm) (h : signalStep s g = some t) :
    ShutdownInv ⟨t, n.afterSignal s t g⟩ := by
  have hhosts : ∀ c, t.pc = .cycle false c → HostsNoted (n.afterSignal s t g) c := by
    obtain ⟨-, -, -, -, -, hpc | hpc⟩ := signalStep_frame h
    · intro c hc
      have hnoted : HostsNoted n c := hi.hosts c (hpc.symm.trans hc)
      cases c <;> exact hnoted
    · intro c hc
      cases hpc.symm.trans hc
  cases hh : n.handled || (s.signals.installed && g.shutsDown) with
  | false =>
    have hcut : (n.afterSignal s t g).cutShort = n.cutShort := by
      simp only [ShutdownNotes.afterSignal, hh, Bool.false_and, Bool.or_false]
    refine ⟨hi.noRestart, hcut.trans hi.complete, fun hh' => ?_, hhosts⟩
    cases hh.symm.trans hh'
  | true =>
    have hinstalled : s.signals.installed = true := by
      rw [Bool.or_eq_true, Bool.and_eq_true] at hh
      exact hh.elim hi.installed And.left
    obtain ⟨hkept, hpc⟩ := signalStep_installed h hinstalled
    have hcut : (n.afterSignal s t g).cutShort = n.cutShort := by
      have hstays : (s.pc.inCycle && !t.pc.inCycle) = false := by
        rcases hpc with ⟨hg, -⟩ | ⟨-, hpc⟩
        · cases hc : s.pc.inCycle with
          | false => rfl
          | true => exact absurd hg (ho hc)
        · rw [hpc, Bool.and_not_self]
      simp only [ShutdownNotes.afterSignal, Bool.and_assoc, hstays, Bool.and_false, Bool.or_false]
    exact ⟨hi.noRestart, hcut.trans hi.complete, fun _ => hkept, hhosts⟩

/-- **Every orderly step.** -/
theorem shutdownInv_step {w w' : Watched} {e : TaskEvent} (hi : ShutdownInv w) (ho : Orderly w e)
    (h : watchedStep cfg w e = some w') : ShutdownInv w' := by
  obtain ⟨s, n⟩ := w
  obtain ⟨t, ht, rfl⟩ := watchedStep_eq_some h
  obtain ⟨-, ⟨m, rfl, hm⟩ | ⟨l, rfl, hl⟩ | ⟨g, rfl, hg⟩⟩ := taskStep_cases ht
  · exact shutdownInv_main hi (ho.2 rfl) hm
  · obtain ⟨hpc, -⟩ := listenerStep_frame hl
    refine ⟨hi.noRestart, hi.complete, fun hh => taskStep_installed ht (hi.installed hh), fun c hc => ?_⟩
    exact hi.hosts c (hpc.symm.trans hc)
  · refine shutdownInv_signal hi (fun hc hterm => ?_) hg
    subst hterm
    cases ho.1 hc

/-! ## The cycle in progress -/

theorem watchedStep_main {w w' : Watched} {m : MainEvent} (h : watchedStep cfg w (.main m) = some w') :
    ∃ t, mainStep cfg w.task m = some t ∧ w' = ⟨t, w.notes.afterMain w.task t m⟩ := by
  obtain ⟨t, ht, rfl⟩ := watchedStep_eq_some h
  obtain ⟨-, ⟨m', hm, hstep⟩ | ⟨l, hl, -⟩ | ⟨g, hg, -⟩⟩ := taskStep_cases ht
  · cases hm
    exact ⟨t, hstep, rfl⟩
  · cases hl
  · cases hg

/-- Where a cycle goes on. -/
inductive CycleNext : CyclePc → CyclePc → Prop
  | detecting : CycleNext .called .detecting
  | failed : CycleNext .detecting .failed
  | discovering (p : Ipv6Addr) : CycleNext .detecting (.discovering p)
  | updating (p : Ipv6Addr) (todo : List (Ipv6Addr × String)) : CycleNext (.discovering p) (.updating p todo)
  | host (p : Ipv6Addr) (h : Ipv6Addr × String) (todo : List (Ipv6Addr × String)) :
      CycleNext (.updating p (h :: todo)) (.updating p todo)

/-- The main task in a cycle goes on with it or ends it. -/
theorem LoopStep.next {c : CyclePc} {m : MainEvent} (h : LoopStep s t m) (hs : s.pc = .cycle false c) :
    (∃ c', t.pc = .cycle false c' ∧ CycleNext c c') ∨
      m = .endCycle ∧ t.pc = .parked ∧ (c = .failed ∨ ∃ p, c = .updating p []) := by
  cases h with
  | outside hs' ht hm =>
    rw [hs] at hs'
    cases hs'
  | start hs' ht hm => cases hs.symm.trans hs'
  | callDetect hs' ht =>
    cases hs.symm.trans hs'
    exact Or.inl ⟨_, ht, .detecting⟩
  | detectReturns answers hs' ht hc =>
    cases hs.symm.trans hs'
    rcases hc with rfl | ⟨p, rfl⟩
    · exact Or.inl ⟨_, ht, .failed⟩
    · exact Or.inl ⟨_, ht, .discovering p⟩
  | discovered hosts todo hs' ht =>
    cases hs.symm.trans hs'
    exact Or.inl ⟨_, ht, .updating _ todo⟩
  | host outcome hs' ht =>
    cases hs.symm.trans hs'
    exact Or.inl ⟨_, ht, .host _ _ _⟩
  | endCycle hs' hc ht =>
    cases hs.symm.trans hs'
    exact Or.inr ⟨rfl, ht, hc⟩

/-- A cycle that can take a step runs to its end if it does so after every step. -/
theorem runsToEnd_step {n : ShutdownNotes} {c : CyclePc} (hs : s.pc = .cycle false c) (hn : HostsNoted n c)
    (hcan : ∃ m t, mainStep cfg s m = some t) (hnext : ∀ c', CycleNext c c' → ∀ (t : TaskState) (n' : ShutdownNotes),
      t.pc = .cycle false c' → HostsNoted n' c' → RunsToEnd cfg ⟨t, n'⟩) : RunsToEnd cfg ⟨s, n⟩ := by
  obtain ⟨m₀, t₀, h₀⟩ := hcan
  refine .step ⟨m₀, ⟨t₀, n.afterMain s t₀ m₀⟩, ?_⟩ fun m w' hw' => ?_
  · simp only [watchedStep, taskStep, hs, reduceCtorEq, or_self, if_false, h₀, Option.map_some, ShutdownNotes.after]
  · obtain ⟨t, ht, rfl⟩ := watchedStep_main hw'
    have hstep := mainStep_loopStep ht
    rcases hstep.next hs with ⟨c', hc', hgo⟩ | ⟨rfl, hparked, hc⟩
    · refine hnext c' hgo t _ hc' (hostsNoted_main (fun c'' hc'' => ?_) hstep c' hc')
      cases hs.symm.trans hc''
      exact hn
    · exact .ended hparked (processed_of_end hn hc)

/-- The host loop, by induction on the hosts that are left. -/
theorem runsToEnd_updating {p : Ipv6Addr} (todo : List (Ipv6Addr × String)) {n : ShutdownNotes}
    (hs : s.pc = .cycle false (.updating p todo)) (hn : HostsNoted n (.updating p todo)) : RunsToEnd cfg ⟨s, n⟩ := by
  induction todo generalizing s n with
  | nil =>
    refine runsToEnd_step hs hn ⟨.endCycle, s.leaveCycle false, by simp only [mainStep, hs]⟩ fun c' hgo => ?_
    cases hgo
  | cons h todo ih =>
    refine runsToEnd_step hs hn ⟨.host (.ok ()), _, by simp only [mainStep, hs]; rfl⟩ fun c' hgo t n' ht hn' => ?_
    cases hgo
    exact ih ht hn'

/-- **A cycle in progress runs to its end**, wherever it stands. -/
theorem runsToEnd_of_noted {n : ShutdownNotes} {c : CyclePc} (hs : s.pc = .cycle false c) (hn : HostsNoted n c) :
    RunsToEnd cfg ⟨s, n⟩ := by
  have hdiscovering : ∀ (p : Ipv6Addr) (s : TaskState) (n : ShutdownNotes), s.pc = .cycle false (.discovering p) →
      HostsNoted n (.discovering p) → RunsToEnd cfg ⟨s, n⟩ := by
    intro p s n hs hn
    refine runsToEnd_step hs hn ⟨.discovered none, _, by simp only [mainStep, hs]; rfl⟩ fun c' hgo t n' ht hn' => ?_
    cases hgo
    exact runsToEnd_updating _ ht hn'
  have hfailed : ∀ (s : TaskState) (n : ShutdownNotes), s.pc = .cycle false .failed → HostsNoted n .failed →
      RunsToEnd cfg ⟨s, n⟩ := by
    intro s n hs hn
    refine runsToEnd_step hs hn ⟨.endCycle, s.leaveCycle false, by simp only [mainStep, hs]⟩ fun c' hgo => ?_
    cases hgo
  have hdetecting : ∀ (s : TaskState) (n : ShutdownNotes), s.pc = .cycle false .detecting → HostsNoted n .detecting →
      RunsToEnd cfg ⟨s, n⟩ := by
    intro s n hs hn
    refine runsToEnd_step hs hn ⟨.detectReturns ⟨.error "", .error ""⟩, _, by simp only [mainStep, hs]; rfl⟩
      fun c' hgo t n' ht hn' => ?_
    cases hgo with
    | failed => exact hfailed t n' ht hn'
    | discovering p => exact hdiscovering p t n' ht hn'
  cases c with
  | called =>
    refine runsToEnd_step hs hn ⟨.callDetect, _, by simp only [mainStep, hs]; rfl⟩ fun c' hgo t n' ht hn' => ?_
    cases hgo
    exact hdetecting t n' ht hn'
  | detecting => exact hdetecting s n hs hn
  | discovering p => exact hdiscovering p s n hs hn
  | updating p todo => exact runsToEnd_updating todo hs hn
  | failed => exact hfailed s n hs hn

theorem MainPc.inCycle_iff {pc : MainPc} : pc.inCycle = true ↔ ∃ c, pc = .cycle false c := by
  cases pc with
  | cycle startup c => cases startup <;> simp [inCycle]
  | _ => simp [inCycle]

theorem ShutdownInv.graceful {w : Watched} (h : ShutdownInv w) : Graceful cfg w where
  noRestart := h.noRestart
  complete := h.complete
  runsToEnd := fun _ hc => by
    obtain ⟨c, hpc⟩ := MainPc.inCycle_iff.1 hc
    exact runsToEnd_of_noted hpc (h.hosts c hpc)

/-- **Graceful shutdown**, in every interleaving of orderly steps from process start. -/
theorem graceful_of_orderly (cfg : Setup) {es : List TaskEvent} {w : Watched}
    (hr : run (watchedStep cfg) .init es = some w) (ho : Along (watchedStep cfg) Orderly .init es) : Graceful cfg w :=
  (run_inv_along (fun _ _ _ hi ho h => shutdownInv_step hi ho h) shutdownInv_init ho hr).graceful

/-! ## Steps that are not orderly -/

/-- A SIGTERM in a cycle of the loop cuts it short. -/
theorem ungraceful_of_sigterm {w : Watched} (hi : w.task.signals.installed = true) (hc : w.task.pc.inCycle = true) :
    ∃ w', watchedStep cfg w (.signal .sigterm) = some w' ∧ ¬Graceful cfg w' := by
  obtain ⟨c, hpc⟩ := MainPc.inCycle_iff.1 hc
  have hstep : taskStep cfg w.task (.signal .sigterm) = some { w.task with pc := .killed } := by
    simp only [taskStep, hpc, reduceCtorEq, or_self, if_false, signalStep]
  refine ⟨_, by rw [watchedStep, hstep, Option.map_some], fun hg => ?_⟩
  have hcut : (w.notes.afterSignal w.task { w.task with pc := .killed } .sigterm).cutShort = true := by
    have hleft : MainPc.killed.inCycle = false := rfl
    simp only [ShutdownNotes.afterSignal, hi, hc, hleft, SignalEvent.shutsDown, Bool.and_self, Bool.or_true,
      Bool.not_false]
  exact Bool.false_ne_true (hg.complete.symm.trans hcut)

/-- After the signal, a step by which `select!` starts a cycle is one too many. -/
theorem ungraceful_of_start {w : Watched} {m : MainEvent} (hh : w.notes.handled = true) (hpc : w.task.pc = .parked)
    (hm : m = .changed ∨ m = .notified) (h : mainStep cfg w.task m = some t) :
    ∃ w', watchedStep cfg w (.main m) = some w' ∧ ¬Graceful cfg w' := by
  have hstep : taskStep cfg w.task (.main m) = some t := by
    simp only [taskStep, hpc, reduceCtorEq, or_self, if_false, h]
  refine ⟨_, by rw [watchedStep, hstep, Option.map_some], fun hg => ?_⟩
  have hrestarted : (w.notes.afterMain w.task t m).restarted = true := by
    rcases hm with rfl | rfl <;> simp only [ShutdownNotes.afterMain, hh, Bool.or_true]
  exact Bool.false_ne_true (hg.noRestart.symm.trans hrestarted)

/-- After the signal, with an unseen change or a permit, `select!` may start a cycle. -/
theorem ungraceful_of_ready {w : Watched} (hh : w.notes.handled = true) (hpc : w.task.pc = .parked)
    (hready : w.task.Unseen ∨ w.task.signals.permit = true) :
    ∃ m w', watchedStep cfg w (.main m) = some w' ∧ ¬Graceful cfg w' := by
  rcases hready with ⟨r, hr, hu⟩ | hp
  · have hchanged : r.changed w.task.chan = some ⟨w.task.chan.version⟩ := Watch.changed_eq_some.2 ⟨hu, rfl⟩
    have hstep : mainStep cfg w.task .changed =
        some { w.task with pc := .cycle false .called, rx := some ⟨w.task.chan.version⟩ } := by
      simp only [mainStep, hpc, hr, Option.bind_some, hchanged, Option.map_some]
    exact ⟨.changed, ungraceful_of_start hh hpc (Or.inl rfl) hstep⟩
  · have hstep : mainStep cfg w.task .notified =
        some { w.task with pc := .cycle false .called, signals := { w.task.signals with permit := false } } := by
      simp only [mainStep, hpc, hp, if_true]
    exact ⟨.notified, ungraceful_of_start hh hpc (Or.inr rfl) hstep⟩

/-- **The condition is exact**: with the handlers installed, from a state that orderly steps have led to, every next
step is orderly exactly if every next state is graceful. -/
theorem orderly_exact {w : Watched} (hi : ShutdownInv w) (hinst : w.task.signals.installed = true) :
    (∀ e w', watchedStep cfg w e = some w' → Orderly w e) ↔
      ∀ e w', watchedStep cfg w e = some w' → Graceful cfg w' := by
  constructor
  · intro ho e w' h
    exact (shutdownInv_step hi (ho e w' h) h).graceful
  · intro hg e w' h
    constructor
    · intro hc
      cases hterm : e.isSigterm with
      | false => rfl
      | true =>
        obtain ⟨w', hstep, hnot⟩ : ∃ w', watchedStep cfg w (.signal .sigterm) = some w' ∧ ¬Graceful cfg w' :=
          ungraceful_of_sigterm hinst hc
        exact absurd (hg _ _ hstep) hnot
    · intro _ hh hpc
      by_contra hready
      rw [not_and_or, not_not, Bool.not_eq_false] at hready
      obtain ⟨m, w', hstep, hnot⟩ : ∃ m w', watchedStep cfg w (.main m) = some w' ∧ ¬Graceful cfg w' :=
        ungraceful_of_ready hh hpc hready
      exact hnot (hg _ _ hstep)

/-! ## Runs -/

/-- The configuration of the runs below: a netlink watcher and two hosts. -/
def twoHosts : Setup :=
  ⟨.netlink "eth0", [(⟨0, 0, 0, 0, 0, 0, 0, 1⟩, "nas.example.com"), (⟨0, 0, 0, 0, 0, 0, 0, 2⟩, "git.example.com")]⟩

/-- Process start until the main task is in `select!`, with all handlers installed. -/
def startEvents : List TaskEvent :=
  [.main .spawnListener, .main .newReturns, .main (.seedHosts none), .main (.seedRecord (.ok none)),
    .main (.seedRecord (.ok none)), .main .startupCycle, .main .callDetect,
    .main (.detectReturns ⟨.error "", .ok (.ok [])⟩), .main .endCycle, .main .spawnSignalTasks, .main .subscribe,
    .signal .listenInt, .signal .listenUsr1]

/-- A new address, until the first of the two hosts has been processed. -/
def halfCycle : List TaskEvent :=
  addressEvents ++ [.main .changed, .main .callDetect,
    .main (.detectReturns
      ⟨.error "", .ok (.ok [⟨true, some (.v6 ⟨0x2001, 0xdb8, 0, 1, 0, 0, 0, 7⟩), false, true, none⟩])⟩),
    .main (.discovered none), .main (.host (.ok ()))]

/-- The rest of the cycle. -/
def restOfCycle : List TaskEvent := [.main (.host (.ok ())), .main .endCycle]

/-- A SIGINT that is handled in the middle of a cycle: the cycle ends, then the process. -/
theorem graceful_sigint : ∃ w,
    run (watchedStep twoHosts) .init
        (startEvents ++ halfCycle ++ [.signal .sigint, .signal .cancel] ++ restOfCycle ++ [.main .cancelled]) =
      some w ∧ w.task.pc = .stopped ∧ Graceful twoHosts w :=
  ⟨_, rfl, rfl, graceful_of_orderly twoHosts
    (show run _ _ (startEvents ++ halfCycle ++ [.signal .sigint, .signal .cancel] ++ restOfCycle ++
      [.main .cancelled]) = _ from rfl)
    (by decide)⟩

/-- **Not every shutdown is graceful**: a SIGTERM kills the process with a host left, and after a SIGINT that was
handled in a cycle, `select!` may take a change that came meanwhile. -/
theorem not_graceful :
    (∃ w, run (watchedStep twoHosts) .init (startEvents ++ halfCycle ++ [.signal .sigterm]) = some w ∧
      w.task.pc = .killed ∧ ¬Graceful twoHosts w) ∧
    (∃ w, run (watchedStep twoHosts) .init (startEvents ++ halfCycle ++ [.signal .sigint, .signal .cancel] ++
        addressEvents ++ restOfCycle ++ [.main .changed]) = some w ∧
      w.task.pc = .cycle false .called ∧ ¬Graceful twoHosts w) :=
  ⟨⟨_, rfl, rfl, fun hg => nomatch hg.complete⟩, ⟨_, rfl, rfl, fun hg => nomatch hg.noRestart⟩⟩

end DdnsIpv6

import DdnsIpv6.Tasks.Notify
import DdnsIpv6.Tasks.Shutdown
import DdnsIpv6.Lib.Observer
import Mathlib.Algebra.Ring.Nat

/-!
# What the cycles of the main loop answer

The main loop runs a cycle for a change that it has not seen, or for a permit of `force_refresh`. Changes and signals
that come in faster than cycles run are answered together. An observer counts them: every SIGUSR1 that its handler
received, and every change that was sent since the loop has subscribed, is answered by exactly one cycle that begins
after it, or is still waiting for one, and there is no cycle without a cause (`answered_once`).
-/

namespace DdnsIpv6

open Lib

variable {cfg : Setup} {s t : TaskState}

/-- The causes of cycles, and the cycles of the main loop. -/
structure Causes where
  /-- The changes that were sent to the main loop. -/
  changes : Nat
  /-- The SIGUSR1s that were received. -/
  refreshes : Nat
  /-- Of the changes, those that the main loop has not seen. -/
  unseen : Nat
  /-- Of the SIGUSR1s, those that the signal task has yet to act on, and those of the stored permit. -/
  received : Nat
  permitted : Nat
  /-- For each cycle of the loop, the last one first, how many causes it answers. -/
  answered : List Nat
  /-- The cycles of the loop that have begun. -/
  begun : Nat
  deriving DecidableEq, Repr

def Causes.none : Causes := ⟨0, 0, 0, 0, 0, [], 0⟩

/-- What a step does to the causes. -/
def Causes.noteCause (s : TaskState) (e : TaskEvent) (n : Causes) : Causes :=
  match e with
  | .listener .send => if s.rx.isSome then { n with changes := n.changes + 1, unseen := n.unseen + 1 } else n
  | .signal .sigusr1 =>
    if s.signals.usr1Listening then { n with refreshes := n.refreshes + 1, received := n.received + 1 } else n
  | .signal .notifyOne => { n with received := 0, permitted := n.permitted + n.received }
  | .main .changed => { n with unseen := 0, answered := n.unseen :: n.answered }
  | .main .notified => { n with permitted := 0, answered := n.permitted :: n.answered }
  | _ => n

/-- The notes on a step; a cycle of the loop begins when `select!` is left for it. -/
def Causes.note (s : TaskState) (e : TaskEvent) (t : TaskState) (n : Causes) : Causes :=
  let begun := if s.pc = .parked ∧ t.pc = .cycle false .called then n.begun + 1 else n.begun
  { n.noteCause s e with begun := begun }

/-- Every cause is answered or waiting, and where it waits the process has a flag for it. -/
structure Accounted (s : TaskState) (n : Causes) : Prop where
  begun : n.begun = n.answered.length
  caused : ∀ k ∈ n.answered, 0 < k
  total : n.answered.sum + n.unseen + n.received + n.permitted = n.changes + n.refreshes
  unseen : 0 < n.unseen ↔ s.Unseen
  received : 0 < n.received ↔ s.signals.usr1Received = true
  permitted : 0 < n.permitted ↔ s.signals.permit = true

variable {n : Causes}

theorem accounted_init : Accounted .init .none where
  begun := rfl
  caused := fun _ hk => by cases hk
  total := rfl
  unseen := ⟨(fun h => by cases h), fun ⟨_, hr, _⟩ => by cases hr⟩
  received := ⟨(fun h => by cases h), fun h => by cases h⟩
  permitted := ⟨(fun h => by cases h), fun h => by cases h⟩

/-- The causes do not change, and no cycle of the loop begins. -/
theorem Accounted.quiet {e : TaskEvent} (hi : Accounted s n) (hcause : n.noteCause s e = n)
    (hpc : s.pc = .parked → t.pc ≠ .cycle false .called) (hunseen : t.Unseen ↔ s.Unseen)
    (hsignals : t.signals.usr1Received = s.signals.usr1Received ∧ t.signals.permit = s.signals.permit) :
    Accounted t (n.note s e t) := by
  have hnote : n.note s e t = n := by
    rw [Causes.note, hcause, if_neg fun hb => hpc hb.1 hb.2]
  rw [hnote]
  exact ⟨hi.begun, hi.caused, hi.total, hi.unseen.trans hunseen.symm, by rw [hsignals.1]; exact hi.received,
    by rw [hsignals.2]; exact hi.permitted⟩

/-- The main task answers what it takes out of `select!`. -/
theorem accounted_main {m : MainEvent} (hi : Accounted s n) (hrec : ReceiverInv s) (h : mainStep cfg s m = some t) :
    Accounted t (n.note s (.main m) t) := by
  have away : ∀ {pc : MainPc}, s.pc = pc → pc ≠ .parked → s.pc = .parked → t.pc ≠ .cycle false .called :=
    fun hpc hne hparked => absurd (hpc.symm.trans hparked) hne
  cases mainStep_cases h with
  | spawnListener hpc =>
    have hrx : s.rx = none := hrec.early (by rw [hpc]; rfl)
    refine hi.quiet rfl (away hpc (by simp)) ?_ ⟨rfl, rfl⟩
    exact ⟨fun hu => absurd hu (not_unseen_of_none hrx), fun hu => absurd hu (not_unseen_of_none hrx)⟩
  | newReturns hpc =>
    have hrx : s.rx = none := hrec.early (by rw [hpc]; rfl)
    refine hi.quiet rfl (away hpc (by simp)) ?_ ⟨rfl, rfl⟩
    exact ⟨fun hu => absurd hu (not_unseen_of_none hrx), fun hu => absurd hu (not_unseen_of_none hrx)⟩
  | subscribe hpc =>
    have hrx : s.rx = none := hrec.early (by rw [hpc]; rfl)
    refine hi.quiet rfl (away hpc (by simp)) ?_ ⟨rfl, rfl⟩
    refine ⟨fun ⟨r, hr, hu⟩ => ?_, fun hu => absurd hu (not_unseen_of_none hrx)⟩
    cases hr
    exact absurd (hu.symm.trans (Watch.not_unseen_subscribe _)) (by simp)
  | changed r r' hpc hr hc =>
    obtain ⟨hunseen, rfl⟩ := Watch.changed_eq_some.1 hc
    have hpos : 0 < n.unseen := hi.unseen.2 ⟨r, hr, hunseen⟩
    have hbegun : n.note s (.main .changed) { s with pc := .cycle false .called, rx := some ⟨s.chan.version⟩ } =
        { n with unseen := 0, answered := n.unseen :: n.answered, begun := n.begun + 1 } := by
      rw [Causes.note, if_pos ⟨hpc, rfl⟩]
      rfl
    rw [hbegun]
    refine ⟨congrArg (· + 1) hi.begun, ?_, ?_, ⟨(fun hz => by cases hz), ?_⟩, hi.received, hi.permitted⟩
    · exact List.forall_mem_cons.2 ⟨hpos, hi.caused⟩
    · have htotal := hi.total
      simp only [List.sum_cons]
      omega
    · rintro ⟨r, hr, hu⟩
      cases hr
      exact absurd rfl (Watch.unseen_iff.1 hu)
  | notified hpc hp =>
    have hpos : 0 < n.permitted := hi.permitted.2 hp
    have hbegun : n.note s (.main .notified)
          { s with pc := .cycle false .called, signals := { s.signals with permit := false } } =
        { n with permitted := 0, answered := n.permitted :: n.answered, begun := n.begun + 1 } := by
      rw [Causes.note, if_pos ⟨hpc, rfl⟩]
      rfl
    rw [hbegun]
    refine ⟨congrArg (· + 1) hi.begun, ?_, ?_, hi.unseen, hi.received, ⟨(fun hz => by cases hz), fun hz => by cases hz⟩⟩
    · exact List.forall_mem_cons.2 ⟨hpos, hi.caused⟩
    · have htotal := hi.total
      simp only [List.sum_cons]
      omega
  | cancelled hpc hc => exact hi.quiet rfl (fun _ hne => by cases hne) Iff.rfl ⟨rfl, rfl⟩
  | endCycle startup c hpc hc =>
    exact hi.quiet rfl (away hpc (by simp)) Iff.rfl ⟨rfl, rfl⟩
  | seedHosts discovered hpc | seedRecord answer e todo hpc | startupCycle hpc | callDetect startup hpc
  | detectReturns answers startup c hpc ok error | discovered hosts startup p hpc
  | host outcome startup p suffix domain todo hpc | spawnSignalTasks hpc =>
    exact hi.quiet rfl (away hpc (by simp)) Iff.rfl ⟨rfl, rfl⟩

/-- The listener sends to the main loop once it has subscribed. -/
theorem accounted_listener {l : ListenerEvent} (hi : Accounted s n) (hrec : ReceiverInv s)
    (h : listenerStep cfg s l = some t) : Accounted t (n.note s (.listener l) t) := by
  obtain ⟨hpc, hrx, -, -, hchan⟩ := listenerStep_frame h
  have hsignals : t.signals = s.signals := listenerStep_signals h
  have hplace : s.pc = .parked → t.pc ≠ .cycle false .called := fun hparked hcalled => by
    rw [hpc, hparked] at hcalled
    cases hcalled
  rcases hchan with ⟨rfl, hchan, -⟩ | ⟨hne, hchan, -⟩
  · cases hr : s.rx with
    | none =>
      refine hi.quiet ?_ hplace ?_ ⟨by rw [hsignals], by rw [hsignals]⟩
      · simp only [Causes.noteCause, hr, Option.isSome_none, Bool.false_eq_true, if_false]
      · exact ⟨fun hu => absurd hu (not_unseen_of_none (hrx.trans hr)), fun hu => absurd hu (not_unseen_of_none hr)⟩
    | some r =>
      have hnote : n.note s (.listener .send) t = { n with changes := n.changes + 1, unseen := n.unseen + 1 } := by
        rw [Causes.note, if_neg fun hb => hplace hb.1 hb.2]
        simp only [Causes.noteCause, hr, Option.isSome_some, if_true]
      have hunseen : t.Unseen := unseen_of_send hrec (by rw [hr]; exact Option.some_ne_none r) hrx hchan
      rw [hnote]
      refine ⟨hi.begun, hi.caused, ?_, ⟨fun _ => hunseen, fun _ => Nat.succ_pos _⟩, by rw [hsignals]; exact hi.received,
        by rw [hsignals]; exact hi.permitted⟩
      have htotal := hi.total
      simp only
      omega
  · refine hi.quiet ?_ hplace (unseen_congr hrx hchan) ⟨by rw [hsignals], by rw [hsignals]⟩
    cases l <;> first | rfl | exact absurd rfl hne

/-- A SIGUSR1 that is received waits for the signal task, and then as the stored permit. -/
theorem accounted_signal {g : SignalEvent} (hi : Accounted s n) (h : signalStep s g = some t) :
    Accounted t (n.note s (.signal g) t) := by
  obtain ⟨-, hchan, hrx, -, -, hpc⟩ := signalStep_frame h
  have hunseen : t.Unseen ↔ s.Unseen := unseen_congr hrx hchan
  have hplace : s.pc = .parked → t.pc ≠ .cycle false .called := fun hparked hcalled => by
    rcases hpc with hpc | hpc <;> rw [hpc] at hcalled
    · cases hparked.symm.trans hcalled
    · cases hcalled
  have hnote : n.note s (.signal g) t = n.noteCause s (.signal g) := by
    rw [Causes.note, if_neg fun hb => hplace hb.1 hb.2]
    have hbegun : (n.noteCause s (.signal g)).begun = n.begun := by
      unfold Causes.noteCause
      split <;> first | rfl | split <;> rfl
    rw [← hbegun]
  cases g with
  | sigusr1 =>
    simp only [signalStep] at h
    split at h
    · rename_i hlistening
      cases h
      rw [hnote, Causes.noteCause, if_pos hlistening]
      refine ⟨hi.begun, hi.caused, ?_, hi.unseen, ⟨fun _ => rfl, fun _ => Nat.succ_pos _⟩, hi.permitted⟩
      have htotal := hi.total
      simp only
      omega
    · rename_i hlistening
      cases h
      exact hi.quiet (if_neg hlistening) hplace hunseen ⟨rfl, rfl⟩
  | notifyOne =>
    simp only [signalStep] at h
    split at h
    · rename_i hreceived
      cases h
      have hpos : 0 < n.received := hi.received.2 hreceived
      rw [hnote]
      refine ⟨hi.begun, hi.caused, ?_, hi.unseen, ⟨(fun hz => by cases hz), fun hz => by cases hz⟩,
        ⟨fun _ => rfl, fun _ => Nat.add_pos_right _ hpos⟩⟩
      have htotal := hi.total
      simp only [Causes.noteCause]
      omega
    · cases h
  | sigterm =>
    cases h
    exact hi.quiet rfl hplace hunseen ⟨rfl, rfl⟩
  | sigint | listenInt | listenUsr1 | cancel =>
    simp only [signalStep] at h
    split at h <;> cases h <;> exact hi.quiet rfl hplace hunseen ⟨rfl, rfl⟩

/-- **Every step keeps the account.** -/
theorem accounted_step {e : TaskEvent} (hi : ReceiverInv s ∧ Accounted s n) (h : taskStep cfg s e = some t) :
    ReceiverInv t ∧ Accounted t (n.note s e t) := by
  refine ⟨receiverInv_step hi.1 h, ?_⟩
  obtain ⟨-, ⟨m, rfl, hm⟩ | ⟨l, rfl, hl⟩ | ⟨g, rfl, hg⟩⟩ := taskStep_cases h
  · exact accounted_main hi.2 hi.1 hm
  · exact accounted_listener hi.2 hi.1 hl
  · exact accounted_signal hi.2 hg

/-- **Every cause is answered once**, in every interleaving from process start: the cycles of the main loop are those
that answer something, and the changes since the subscription and the SIGUSR1s are answered by exactly one of them each,
but for those that wait as an unseen change, a received signal or a stored permit. -/
theorem answered_once (cfg : Setup) {es : List TaskEvent}
    (hr : run (observed (taskStep cfg) Causes.note) (.init, .none) es = some (t, n)) : Accounted t n := by
  refine (observed_inv (I := fun s n => ReceiverInv s ∧ Accounted s n) (fun s n e t hi h => ?_)
    ⟨receiverInv_init, accounted_init⟩ hr).2
  exact accounted_step hi h

/-- Two changes and a SIGUSR1 while the main task is parked, and a cycle for the changes. -/
def sampleCauses : List TaskEvent :=
  startupEvents ++ enterEvents ++ [.signal .listenUsr1] ++ addressEvents ++ addressEvents ++
    [.signal .sigusr1, .signal .notifyOne] ++ cycleEvents

/-- The two changes are answered by one cycle, and the SIGUSR1 waits as the permit. -/
theorem answered_once_burst : ∃ t n,
    run (observed (taskStep netlinkSetup) Causes.note) (.init, .none) sampleCauses = some (t, n) ∧
      (n.answered = [2] ∧ n.permitted = 1) ∧ Accounted t n :=
  ⟨_, _, rfl, ⟨rfl, rfl⟩, answered_once netlinkSetup (show run _ _ sampleCauses = _ from rfl)⟩

end DdnsIpv6

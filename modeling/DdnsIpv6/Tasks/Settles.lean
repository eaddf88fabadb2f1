import DdnsIpv6.Tasks.Delivery
import DdnsIpv6.Tasks.Progress

/-!
# The process comes to rest

News for the process are a SIGUSR1, and whatever makes a listener announce a change. A process that goes on forever, in
which no task stands still for good, comes to rest when there are no more news, and stays so (`settles`). With RA
detection it has then delivered the last advertisement (`delivered_finally`). It goes on forever only if it receives no
SIGINT (`sigint_stops`).
-/

namespace DdnsIpv6

open Lib Prefix

/-- The event asks for a cycle, or makes the listener announce a change. -/
inductive IsNews (cfg : Setup) (s : TaskState) : TaskEvent → Prop
  | sigusr1 : IsNews cfg s (.signal .sigusr1)
  | lookup {referenceDomain : String} {lookup : Except String (List IpAddr)} {newPrefix : Ipv6Addr} {l : Listener}
      (hm : cfg.method = .dns referenceDomain) (hl : s.listener = some l)
      (hr : Dns.resolvePrefixInner lookup referenceDomain = .ok newPrefix) (hne : l.last ≠ some newPrefix) :
      IsNews cfg s (.listener (.pollEnd lookup))
  | packet {data : List UInt8} {p : Ipv6Addr} (hp : Ra.packetPrefix data = some p) :
      IsNews cfg s (.listener (.packet data))
  | address : IsNews cfg s (.listener (.address true))

/-- In `select!`, and nothing asks for a cycle. -/
structure TaskState.AtRest (s : TaskState) : Prop where
  parked : s.pc = .parked
  unasked : ¬s.Asked

theorem TaskState.AtRest.quiet {s : TaskState} (h : s.AtRest) : s.Quiet :=
  ⟨h.parked, fun hu => h.unasked (Or.inl (Or.inr hu)),
    fun hs => h.unasked (Or.inr (Or.inr ⟨hs, by rw [h.parked]; rfl⟩))⟩

/-- The reasons for a cycle, counted. -/
def TaskState.reasons (s : TaskState) : ℕ := (if s.signals.permit then 1 else 0) + if s.Unseen then 1 else 0

theorem TaskState.reasons_eq_zero {s : TaskState} : s.reasons = 0 ↔ ¬s.Woken := by
  unfold TaskState.reasons TaskState.Woken
  by_cases hp : s.signals.permit = true <;> by_cases hu : s.Unseen <;> simp [hp, hu]

section Steps

variable {cfg : Setup} {s t : TaskState} {e : TaskEvent}

theorem reasons_le (hp : t.signals.permit = true → s.signals.permit = true) (hu : t.Unseen → s.Unseen) :
    t.reasons ≤ s.reasons := by
  unfold TaskState.reasons
  split_ifs with hp' hu' <;> simp_all

/-- The change is seen. -/
theorem reasons_lt_of_seen (hp : t.signals.permit = s.signals.permit) (hs : s.Unseen) (ht : ¬t.Unseen) :
    t.reasons < s.reasons := by
  unfold TaskState.reasons
  rw [hp, if_pos hs, if_neg ht]
  exact Nat.lt_succ_self _

/-- The permit is taken. -/
theorem reasons_lt_of_taken (hs : s.signals.permit = true) (ht : t.signals.permit = false)
    (hu : t.Unseen → s.Unseen) : t.reasons < s.reasons := by
  unfold TaskState.reasons
  rw [if_pos hs, ht, if_neg Bool.false_ne_true]
  split_ifs with hut hus
  · exact Nat.one_lt_two
  · exact absurd (hu hut) hus
  · exact Nat.zero_lt_two
  · exact Nat.one_pos

/-- Without news no change comes up to be sent. -/
theorem sending_of_noNews (hn : ¬IsNews cfg s e) (h : taskStep cfg s e = some t) (ht : t.Sending) : s.Sending := by
  obtain ⟨-, ⟨m, rfl, hm⟩ | ⟨l, rfl, hl⟩ | ⟨g, rfl, hg⟩⟩ := taskStep_cases h
  · cases mainStep_cases hm with
    | spawnListener hpc => cases ht
    | newReturns hpc | seedHosts discovered hpc | seedRecord answer e todo hpc | startupCycle hpc
    | callDetect startup hpc | detectReturns answers startup c hpc ok error | discovered hosts startup p hpc
    | host outcome startup p suffix domain todo hpc | endCycle startup c hpc hc | spawnSignalTasks hpc | subscribe hpc
    | changed r r' hpc hr hc | notified hpc hp | cancelled hpc hc => exact ht
  · obtain ⟨ls, hls, hcase⟩ := listenerStep_cases hl
    cases hcase with
    | pollChanged referenceDomain lookup newPrefix hm hpc hr hne => exact absurd (.lookup hm hls hr hne) hn
    | packet interface data hm hpc =>
      cases hp : Ra.packetPrefix data with
      | some p => exact absurd (.packet hp) hn
      | none =>
        simp only [TaskState.Sending, Ra.receive, hp] at ht
        cases ht
    | address interface isIpv6 hm hpc =>
      cases isIpv6 with
      | true => exact absurd .address hn
      | false => cases ht
    | pollBegin referenceDomain hm hpc | pollSame referenceDomain lookup newPrefix hm hpc hr heq
    | pollFailed referenceDomain lookup e hm hpc hr | send hpc => cases ht
  · obtain ⟨-, -, -, hl, -⟩ := signalStep_frame hg
    exact (sending_congr hl).1 ht

/-- Without a new one no SIGUSR1 is received. -/
theorem unreceived_step (hn : ¬IsNews cfg s e) (hu : s.signals.usr1Received = false)
    (h : taskStep cfg s e = some t) : t.signals.usr1Received = false := by
  obtain ⟨-, ⟨m, rfl, hm⟩ | ⟨l, rfl, hl⟩ | ⟨g, rfl, hg⟩⟩ := taskStep_cases h
  · exact (mainStep_received hm).1.trans hu
  · rw [listenerStep_signals hl]
    exact hu
  · cases g with
    | sigusr1 => exact absurd .sigusr1 hn
    | sigterm =>
      cases hg
      exact hu
    | listenInt | listenUsr1 | sigint | cancel | notifyOne =>
      simp only [signalStep] at hg
      split at hg <;> cases hg <;> first | exact hu | rfl

/-- The reasons for a cycle become fewer when one begins, and no more as long as nothing is sent or received. -/
theorem reasons_step (hrec : ReceiverInv s) (hs : ¬s.Sending) (hu : s.signals.usr1Received = false)
    (h : taskStep cfg s e = some t) : t.reasons < s.reasons ∨ ¬BeginsCycle s t ∧ t.reasons ≤ s.reasons := by
  obtain ⟨-, ⟨m, rfl, hm⟩ | ⟨l, rfl, hl⟩ | ⟨g, rfl, hg⟩⟩ := taskStep_cases h
  · cases mainStep_cases hm with
    | changed r r' hpc hr hc =>
      obtain ⟨hunseen, rfl⟩ := Watch.changed_eq_some.1 hc
      refine Or.inl (reasons_lt_of_seen rfl ⟨r, hr, hunseen⟩ ?_)
      rintro ⟨r', hr', hunseen'⟩
      cases hr'
      exact Watch.unseen_iff.1 hunseen' rfl
    | notified hpc hp => exact Or.inl (reasons_lt_of_taken hp rfl (unseen_congr rfl rfl).1)
    | spawnListener hpc | newReturns hpc =>
      -- the main task has no receiver yet
      have hrx : s.rx = none := hrec.early (by rw [hpc]; rfl)
      refine Or.inr ⟨(fun hb => by cases hpc.symm.trans hb.1), reasons_le id fun ht => ?_⟩
      exact absurd ht (not_unseen_of_none hrx)
    | subscribe hpc =>
      refine Or.inr ⟨(fun hb => by cases hpc.symm.trans hb.1), reasons_le id ?_⟩
      rintro ⟨r, hr, hunseen⟩
      cases hr
      rw [Watch.not_unseen_subscribe] at hunseen
      cases hunseen
    | cancelled hpc hc => exact Or.inr ⟨(fun hb => by cases hb.2), reasons_le id id⟩
    | seedHosts discovered hpc | seedRecord answer e todo hpc | startupCycle hpc | callDetect startup hpc
    | detectReturns answers startup c hpc ok error | discovered hosts startup p hpc
    | host outcome startup p suffix domain todo hpc | endCycle startup c hpc hc | spawnSignalTasks hpc =>
      exact Or.inr ⟨(fun hb => by cases hpc.symm.trans hb.1), reasons_le id id⟩
  · obtain ⟨hpc, hrx, -, -, hchan⟩ := listenerStep_frame hl
    refine Or.inr ⟨(fun hb => by cases hb.1.symm.trans (hpc.symm.trans hb.2)), reasons_le ?_ ?_⟩
    · rw [listenerStep_signals hl]
      exact id
    · rcases hchan with ⟨rfl, -⟩ | ⟨-, hchan, -⟩
      · obtain ⟨ls, hls, hcase⟩ := listenerStep_cases hl
        cases hcase with
        | send hsending => exact absurd (by rw [TaskState.Sending, hls, Option.map_some, hsending]) hs
      · exact (unseen_congr hrx hchan).1
  · obtain ⟨-, hchan, hrx, -, -, hpc⟩ := signalStep_frame hg
    refine Or.inr ⟨fun hb => ?_, reasons_le ?_ (unseen_congr hrx hchan).1⟩
    · rcases hpc with hpc | hpc
      · cases hb.1.symm.trans (hpc.symm.trans hb.2)
      · cases hpc.symm.trans hb.2
    · cases g with
      | notifyOne =>
        simp only [signalStep, hu, Bool.false_eq_true, if_false] at hg
        cases hg
      | sigterm =>
        cases hg
        exact id
      | listenInt | listenUsr1 | sigint | sigusr1 | cancel =>
        simp only [signalStep] at hg
        split at hg <;> cases hg <;> exact id

theorem listenerStep_of_taskStep {l : ListenerEvent} (h : taskStep cfg s (.listener l) = some t) :
    listenerStep cfg s l = some t := by
  obtain ⟨-, ⟨m, he, -⟩ | ⟨l, he, hl⟩ | ⟨g, he, -⟩⟩ := taskStep_cases h <;> cases he
  exact hl

theorem signalStep_of_taskStep {g : SignalEvent} (h : taskStep cfg s (.signal g) = some t) :
    signalStep s g = some t := by
  obtain ⟨-, ⟨m, he, -⟩ | ⟨l, he, -⟩ | ⟨g, he, hg⟩⟩ := taskStep_cases h <;> cases he
  exact hg

/-- What is sent is not about to be sent any more. -/
theorem not_sending_of_send (h : taskStep cfg s (.listener .send) = some t) : ¬t.Sending := by
  obtain ⟨l, -, hcase⟩ := listenerStep_cases (listenerStep_of_taskStep h)
  cases hcase with
  | send hpc => exact fun ht => by cases ht

/-- A SIGUSR1 is taken by its task. -/
theorem unreceived_of_notifyOne (h : taskStep cfg s (.signal .notifyOne) = some t) :
    t.signals.usr1Received = false := by
  have hg := signalStep_of_taskStep h
  simp only [signalStep] at hg
  split at hg <;> cases hg
  rfl

/-- Without a reason for a cycle the main task leaves `select!` for its end only. -/
theorem parked_main {m : MainEvent} (hpc : s.pc = .parked) (hw : ¬s.Woken) (h : mainStep cfg s m = some t) :
    s.signals.cancelled = true ∧ t.pc = .stopped := by
  cases mainStep_cases h with
  | changed r r' _ hr hc => exact absurd (Or.inr ⟨r, hr, (Watch.changed_eq_some.1 hc).1⟩) hw
  | notified _ hp => exact absurd (Or.inl hp) hw
  | cancelled _ hc => exact ⟨hc, rfl⟩
  | spawnListener h' | newReturns h' | seedHosts discovered h' | seedRecord answer e todo h' | startupCycle h'
  | callDetect startup h' | detectReturns answers startup c h' | discovered hosts startup p h'
  | host outcome startup p suffix domain todo h' | endCycle startup c h' | spawnSignalTasks h' | subscribe h' =>
    cases hpc.symm.trans h'

/-- Without a reason for a cycle the main task stays in `select!`, if it goes on. -/
theorem parked_step (hpc : s.pc = .parked) (hw : ¬s.Woken) (h : taskStep cfg s e = some t) (hstopped : t.pc ≠ .stopped)
    (hkilled : t.pc ≠ .killed) : t.pc = .parked := by
  obtain ⟨-, ⟨m, rfl, hm⟩ | ⟨l, rfl, hl⟩ | ⟨g, rfl, hg⟩⟩ := taskStep_cases h
  · exact absurd (parked_main hpc hw hm).2 hstopped
  · obtain ⟨hl, -⟩ := listenerStep_frame hl
    exact hl.trans hpc
  · obtain ⟨-, -, -, -, -, hg⟩ := signalStep_frame hg
    exact (hg.resolve_right hkilled).trans hpc

/-- At rest the main task waits. -/
theorem main_disabled (hpc : s.pc = .parked) (hw : ¬s.Woken) (hc : s.signals.cancelled = false) :
    ¬Enabled (taskStep cfg) (fun e => e.isMain = true) s := by
  rintro ⟨e, he, h⟩
  obtain ⟨t, ht⟩ := Option.isSome_iff_exists.1 h
  obtain ⟨-, ⟨m, rfl, hm⟩ | ⟨l, rfl, -⟩ | ⟨g, rfl, -⟩⟩ := taskStep_cases ht
  · exact Bool.false_ne_true (hc.symm.trans (parked_main hpc hw hm).1)
  · cases he
  · cases he

end Steps

/-! ## Processes that go on forever -/

section Forever

variable {cfg : Setup} {r : InfiniteRun (taskStep cfg)} {n : ℕ}

/-- What is to be sent is sent, once there are no more news. -/
theorem unsent_finally (hf : r.Fair fun e => e = .listener .send)
    (hn : ∀ m, n ≤ m → ¬IsNews cfg (r.state m) (r.event m)) : ∃ m, n ≤ m ∧ ∀ k, m ≤ k → ¬(r.state k).Sending := by
  refine hf.clears (fun m hs => send_enabled (forever_live r m).1 (forever_live r m).2 hs) (fun m he => ?_)
    fun m hm hs ht => hs (sending_of_noNews (hn m hm) (r.step_eq m) ht)
  exact not_sending_of_send (he ▸ r.step_eq m)

/-- The SIGUSR1s that were received are passed on, once there are no more news. -/
theorem unreceived_finally (hf : r.Fair fun e => e = .signal .notifyOne)
    (hn : ∀ m, n ≤ m → ¬IsNews cfg (r.state m) (r.event m)) :
    ∃ m, n ≤ m ∧ ∀ k, m ≤ k → ¬(r.state k).signals.usr1Received = true := by
  refine hf.clears (P := fun s => s.signals.usr1Received = true)
    (fun m hu => notifyOne_enabled (forever_live r m).1 (forever_live r m).2 hu) (fun m he => ?_) fun m hm hu => ?_
  · rw [unreceived_of_notifyOne (he ▸ r.step_eq m)]
    exact Bool.false_ne_true
  · rw [unreceived_step (hn m hm) (Bool.eq_false_of_not_eq_true hu) (r.step_eq m)]
    exact Bool.false_ne_true

/-- Where nothing is sent or received any more, the main task comes to rest. -/
theorem rest_reached (hf : r.Fair fun e => e.isMain = true) (hrec : ∀ n, ReceiverInv (r.state n))
    (hcalm : ∀ m, n ≤ m → ¬(r.state m).Sending ∧ (r.state m).signals.usr1Received = false) :
    ∃ m, n ≤ m ∧ (r.state m).pc = .parked ∧ ¬(r.state m).Woken := by
  refine hf.eventually (P := fun m => n ≤ m) (fun m => toLex ((r.state m).reasons, (r.state m).pc.distance))
    (fun m _ hG => ?_) (fun m hm _ => ⟨Nat.le_succ_of_le hm, ?_⟩) le_rfl
  · exact main_enabled (forever_live r m).1 (forever_live r m).2 fun hpc => by_contra fun hw => hG ⟨hpc, hw⟩
  · rcases reasons_step (hrec m) (hcalm m hm).1 (hcalm m hm).2 (r.step_eq m) with hless | ⟨hbegins, hle⟩
    · have hlt : toLex ((r.state (m + 1)).reasons, (r.state (m + 1)).pc.distance) <
          toLex ((r.state m).reasons, (r.state m).pc.distance) := Prod.Lex.toLex_lt_toLex.2 (Or.inl hless)
      exact ⟨hlt.le, fun _ => hlt⟩
    · obtain ⟨hcloser, hmain⟩ := (taskStep_closer (r.step_eq m) (forever_live r (m + 1)).2).resolve_left hbegins
      exact ⟨Prod.Lex.toLex_mono ⟨hle, hcloser⟩,
        fun he => Prod.Lex.toLex_strictMono (Prod.lt_iff.2 (Or.inr ⟨hle, hmain he⟩))⟩

/-- **Without news the process comes to rest**: a fair run that goes on forever, from any reachable state, and in which
from some time on no SIGUSR1 is delivered and no listener hears of anything that it has to announce, comes to `select!`
for good, with no change, permit or signal left that asks for a cycle. -/
theorem settles (cfg : Setup) (r : InfiniteRun (taskStep cfg)) {es : List TaskEvent}
    (hr : run (taskStep cfg) .init es = some (r.state 0)) (hf : FairTasks r) (n : ℕ)
    (hn : ∀ m, n ≤ m → ¬IsNews cfg (r.state m) (r.event m)) : ∃ m, n ≤ m ∧ ∀ k, m ≤ k → (r.state k).AtRest := by
  have hstart : ReceiverInv (r.state 0) := run_inv (fun _ _ _ hi h => receiverInv_step hi h) receiverInv_init hr
  have hrec : ∀ n, ReceiverInv (r.state n) := InfiniteRun.inv (fun _ _ _ hi h => receiverInv_step hi h) hstart
  obtain ⟨i, hi, hunsent⟩ := unsent_finally hf.send hn
  obtain ⟨j, hj, hunreceived⟩ := unreceived_finally hf.notifyOne hn
  have hcalm : ∀ m, max i j ≤ m → ¬(r.state m).Sending ∧ (r.state m).signals.usr1Received = false := fun m hm =>
    ⟨hunsent m ((le_max_left i j).trans hm), Bool.eq_false_of_not_eq_true (hunreceived m ((le_max_right i j).trans hm))⟩
  obtain ⟨m, hm, hrest⟩ := rest_reached hf.main hrec hcalm
  -- without a reason for a cycle it stays there
  have hstays : ∀ k, m ≤ k → (r.state k).pc = .parked ∧ ¬(r.state k).Woken := fun k hk => by
    induction k, hk using Nat.le_induction with
    | base => exact hrest
    | succ k hk ih =>
      obtain ⟨hunsent, hunreceived⟩ := hcalm k (hm.trans hk)
      have hle : (r.state (k + 1)).reasons ≤ (r.state k).reasons :=
        (reasons_step (hrec k) hunsent hunreceived (r.step_eq k)).elim le_of_lt And.right
      rw [TaskState.reasons_eq_zero.2 ih.2] at hle
      have hlive := forever_live r (k + 1)
      exact ⟨parked_step ih.1 ih.2 (r.step_eq k) hlive.1 hlive.2, TaskState.reasons_eq_zero.1 (Nat.le_zero.1 hle)⟩
  refine ⟨m, hi.trans ((le_max_left i j).trans hm), fun k hk => ⟨(hstays k hk).1, ?_⟩⟩
  obtain ⟨hunsent, hunreceived⟩ := hcalm k (hm.trans hk)
  rintro (hw | hu | hs)
  · exact (hstays k hk).2 hw
  · exact Bool.false_ne_true (hunreceived.symm.trans hu)
  · exact hunsent hs.1

end Forever

/-- News for a parked process. -/
def sampleNews : List TaskEvent := [.signal .sigusr1, .listener (.address true)]

/-- Two cycles in a network without an address, one for each of them. -/
def sampleAnswers : List TaskEvent :=
  [.listener .send, .signal .notifyOne, .main .notified, .main .callDetect,
    .main (.detectReturns ⟨.error "", .ok (.ok [])⟩), .main .endCycle, .main .changed, .main .callDetect,
    .main (.detectReturns ⟨.error "", .ok (.ok [])⟩), .main .endCycle]

/-- The process that has heard of the news, and the process that has acted on them. -/
def toldState : TaskState :=
  { parkedState with
    listener := some ⟨.sending, none⟩
    signals := { parkedState.signals with usr1Received := true } }

def restedState : TaskState := { parkedState with chan := ⟨1, 1⟩, rx := some ⟨1⟩ }

/-- From then on IPv4 addresses come and go. -/
def rested : InfiniteRun (taskStep netlinkSetup) := .loop restedState [.listener (.address false)] (by decide) rfl

/-- Both are answered. -/
def answered : InfiniteRun (taskStep netlinkSetup) := .prepend toldState sampleAnswers rested rfl

def settling : InfiniteRun (taskStep netlinkSetup) := .prepend parkedState sampleNews answered rfl

theorem settles_address : (settling.state 2).Asked ∧ ∃ m, 2 ≤ m ∧ ∀ k, m ≤ k → (settling.state k).AtRest := by
  have hfair : ∀ A, ¬Enabled (taskStep netlinkSetup) A restedState → settling.Fair A := fun A hs =>
    (InfiniteRun.loop_fair_of_disabled (h := rfl) hs).prepend.prepend
  have hf : FairTasks settling := by
    refine ⟨hfair _ (main_disabled rfl (TaskState.reasons_eq_zero.1 rfl) rfl), hfair _ ?_, hfair _ ?_⟩
    · rintro ⟨_, rfl, ht⟩
      cases ht
    · rintro ⟨_, rfl, ht⟩
      cases ht
  have hr : run (taskStep netlinkSetup) .init (startupEvents ++ enterEvents ++ [.signal .listenUsr1]) =
    some (settling.state 0) := rfl
  have hold : ∀ e ∈ sampleAnswers ++ [.listener (.address false)], ∀ s, ¬IsNews netlinkSetup s e := by
    intro e he s hn
    cases hn <;> simp [sampleAnswers] at he
  have hanswers : Along (taskStep netlinkSetup) (fun s e => ¬IsNews netlinkSetup s e) toldState sampleAnswers :=
    Along.imp (fun s e hn => hn s) (along_of_forall fun e he => hold e (List.mem_append_left _ he))
  have hn : ∀ n, ¬IsNews netlinkSetup (answered.state n) (answered.event n) :=
    InfiniteRun.prepend_forall hanswers (InfiniteRun.loop_forall (P := fun s e => ¬IsNews netlinkSetup s e)
      fun s e he => hold e (List.mem_append_right _ he) s)
  exact ⟨Or.inr (Or.inl rfl), settles netlinkSetup settling hr hf 2 fun m (hm : sampleNews.length ≤ m) =>
    InfiniteRun.prepend_forall_from (P := fun s e => ¬IsNews netlinkSetup s e) hn m hm⟩

/-! ## SIGINT -/

section Sigint

variable {cfg : Setup} {s t : TaskState} {e : TaskEvent} {r : InfiniteRun (taskStep cfg)}

/-- A SIGINT that was received stays so, and so does the cancellation. -/
theorem cancelled_step (h : taskStep cfg s e = some t) :
    (s.signals.intReceived = true → t.signals.intReceived = true) ∧
      (s.signals.cancelled = true → t.signals.cancelled = true) := by
  obtain ⟨-, ⟨m, rfl, hm⟩ | ⟨l, rfl, hl⟩ | ⟨g, rfl, hg⟩⟩ := taskStep_cases h
  · obtain ⟨-, hreceived, hcancelled⟩ := mainStep_received hm
    exact ⟨hreceived.trans, hcancelled.trans⟩
  · rw [listenerStep_signals hl]
    exact ⟨id, id⟩
  · cases g with
    | sigterm =>
      cases hg
      exact ⟨id, id⟩
    | listenInt | listenUsr1 | sigusr1 | notifyOne =>
      simp only [signalStep] at hg
      split at hg <;> cases hg <;> exact ⟨id, id⟩
    | sigint =>
      simp only [signalStep] at hg
      split at hg <;> cases hg
      · exact ⟨fun _ => rfl, id⟩
      · exact ⟨id, id⟩
    | cancel =>
      simp only [signalStep] at hg
      split at hg <;> cases hg
      exact ⟨id, fun _ => rfl⟩

/-- The task of SIGINT can cancel. -/
theorem cancel_enabled (hstopped : s.pc ≠ .stopped) (hkilled : s.pc ≠ .killed) (hi : s.signals.intReceived = true) :
    Enabled (taskStep cfg) (fun e => e = .signal .cancel) s := by
  refine ⟨_, rfl, ?_⟩
  rw [taskStep, if_neg (not_or.2 ⟨hstopped, hkilled⟩)]
  simp only [signalStep, if_pos hi, Option.isSome_some]

theorem cancelled_of_cancel (h : taskStep cfg s (.signal .cancel) = some t) : t.signals.cancelled = true := by
  have hg := signalStep_of_taskStep h
  simp only [signalStep] at hg
  split at hg <;> cases hg
  rfl

theorem stopped_of_cancelled (h : taskStep cfg s (.main .cancelled) = some t) : t.pc = .stopped := by
  obtain ⟨-, ⟨m, he, hm⟩ | ⟨l, he, -⟩ | ⟨g, he, -⟩⟩ := taskStep_cases h <;> cases he
  cases mainStep_cases hm with
  | cancelled hpc hc => rfl

/-- What is cancelled does not go on forever. -/
theorem not_cancelled_forever (hf : r.Fair fun e => e.isMain = true)
    (hstrong : r.StronglyFair fun e => e = .main .cancelled) (n : ℕ) : (r.state n).signals.cancelled = false := by
  by_contra hc
  have hcancelled : ∀ k, n ≤ k → (r.state k).signals.cancelled = true := fun k hk => by
    induction k, hk using Nat.le_induction with
    | base => exact Bool.eq_true_of_not_eq_false hc
    | succ k _ ih => exact (cancelled_step (r.step_eq k)).2 ih
  have hoften : ∀ i, ∃ m, i ≤ m ∧ Enabled (taskStep cfg) (fun e => e = .main .cancelled) (r.state m) := fun i => by
    obtain ⟨m, hm, hparked⟩ := returns_to_select hf (max i n)
    refine ⟨m, (le_max_left i n).trans hm, _, rfl, ?_⟩
    rw [taskStep, if_neg (by rw [hparked]; decide)]
    simp only [mainStep, hparked, hcancelled m ((le_max_right i n).trans hm), if_true, Option.isSome_some]
  obtain ⟨m, -, he⟩ := hstrong hoften 0
  exact (forever_live r (m + 1)).1 (stopped_of_cancelled (he ▸ r.step_eq m))

/-- **A SIGINT ends the process**: a process that goes on forever, whose main task and whose task of SIGINT do not stand
still for good, and which does not forever pass over a cancelled token in `select!`, has received no SIGINT, whatever
changes and signals there are. -/
theorem sigint_stops (cfg : Setup) (r : InfiniteRun (taskStep cfg)) (hf : r.Fair fun e => e.isMain = true)
    (hcancel : r.Fair fun e => e = .signal .cancel) (hstrong : r.StronglyFair fun e => e = .main .cancelled) (n : ℕ) :
    (r.state n).signals.intReceived = false := by
  by_contra hi
  have hreceived : ∀ k, n ≤ k → (r.state k).signals.intReceived = true := fun k hk => by
    induction k, hk using Nat.le_induction with
    | base => exact Bool.eq_true_of_not_eq_false hi
    | succ k _ ih => exact (cancelled_step (r.step_eq k)).1 ih
  obtain ⟨m, -, he⟩ := hcancel n fun k hk =>
    cancel_enabled (forever_live r k).1 (forever_live r k).2 (hreceived k hk)
  have hcancelled := cancelled_of_cancel (he ▸ r.step_eq m)
  exact Bool.false_ne_true ((not_cancelled_forever hf hstrong (m + 1)).symm.trans hcancelled)

end Sigint

/-- A process that nobody interrupts. -/
theorem sigint_stops_rested : (rested.state 0).signals.intReceived = false := by
  have hstate : ∀ n, rested.state n = restedState := fun n => by
    simp only [rested, InfiniteRun.loop, List.length_singleton, Nat.mod_one]
    rfl
  have hdisabled : ∀ A, ¬Enabled (taskStep netlinkSetup) A restedState → rested.Fair A := fun A hs =>
    InfiniteRun.loop_fair_of_disabled (h := rfl) hs
  have hmain : ¬Enabled (taskStep netlinkSetup) (fun e => e.isMain = true) restedState :=
    main_disabled rfl (TaskState.reasons_eq_zero.1 rfl) rfl
  refine sigint_stops netlinkSetup rested (hdisabled _ hmain) (hdisabled _ ?_)
    (InfiniteRun.stronglyFair_of_disabled fun n => ?_) 0
  · rintro ⟨_, rfl, ht⟩
    cases ht
  · rw [hstate n]
    rintro ⟨_, rfl, ht⟩
    cases ht

/-! ## Processes with an updater -/

section Served

variable {σ : Type} {cfg : Setup} {v : DnsUpdater σ} {s : Served σ}

/-- A step whose outcome is that of the updater. -/
theorem servedStep_isSome {e : TaskEvent} (ht : (taskStep cfg s.task e).isSome = true)
    (hw : (serve v s e).isSome = true) : (servedStep cfg v s e).isSome = true := by
  obtain ⟨t, ht⟩ := Option.isSome_iff_exists.1 ht
  obtain ⟨w, hw⟩ := Option.isSome_iff_exists.1 hw
  rw [servedStep, ht, Option.bind_some, hw]
  rfl

/-- The main task can go on with the outcomes that its updater gives. -/
theorem served_main_enabled (h : Enabled (taskStep cfg) (fun e => e.isMain = true) s.task) :
    Enabled (servedStep cfg v) (fun e => e.isMain = true) s := by
  obtain ⟨e, he, hsome⟩ := h
  obtain ⟨t, ht⟩ := Option.isSome_iff_exists.1 hsome
  have hlive : ¬(s.task.pc = .stopped ∨ s.task.pc = .killed) := by
    intro hpc
    unfold taskStep at ht
    rw [if_pos hpc] at ht
    cases ht
  obtain ⟨-, ⟨m, rfl, hm⟩ | ⟨l, rfl, -⟩ | ⟨g, rfl, -⟩⟩ := taskStep_cases ht
  · cases mainStep_cases hm with
    | seedRecord answer e todo hpc =>
      refine ⟨.main (.seedRecord (v.getRecord e.2 s.world).1), rfl, servedStep_isSome ?_ ?_⟩
      · rw [taskStep, if_neg hlive]
        simp only [mainStep, hpc, Option.isSome_some]
      · simp only [serve, hpc, if_true, Option.isSome_some]
    | host outcome startup p suffix domain todo hpc =>
      have htask : ∀ outcome, (taskStep cfg s.task (.main (.host outcome))).isSome = true := by
        intro outcome
        rw [taskStep, if_neg hlive]
        simp only [mainStep, hpc, Option.isSome_some]
      cases hnext : s.task.nextCall with
      | none => exact ⟨.main (.host outcome), rfl, servedStep_isSome (htask _) (by simp only [serve, hnext]; rfl)⟩
      | some call =>
        refine ⟨.main (.host (v.setRecord call.1 call.2 s.world).1), rfl, servedStep_isSome (htask _) ?_⟩
        simp only [serve, hnext, if_true, Option.isSome_some]
    | spawnListener hpc | newReturns hpc | seedHosts discovered hpc | startupCycle hpc | callDetect startup hpc
    | detectReturns answers startup c hpc ok error | discovered hosts startup p hpc | endCycle startup c hpc hc
    | spawnSignalTasks hpc | subscribe hpc | changed r r' hpc hr hc | notified hpc hp | cancelled hpc hc =>
      exact ⟨_, he, servedStep_isSome hsome rfl⟩
  · cases he
  · cases he

/-- The tasks of a process with an updater. -/
def tasksOf (r : InfiniteRun (servedStep cfg v)) : InfiniteRun (taskStep cfg) :=
  r.map Served.task fun _ _ _ h => (taskStep_of_servedStep h).1

/-- No task stands still for good while it could take a step. -/
structure FairProcess (r : InfiniteRun (servedStep cfg v)) : Prop where
  main : r.Fair fun e => e.isMain = true
  notifyOne : r.Fair fun e => e = .signal .notifyOne
  send : r.Fair fun e => e = .listener .send

theorem FairProcess.tasks {r : InfiniteRun (servedStep cfg v)} (hf : FairProcess r) : FairTasks (tasksOf r) where
  main := hf.main.map fun _ h => served_main_enabled h
  notifyOne := hf.notifyOne.map fun n ⟨e, he, h⟩ => ⟨e, he, servedStep_isSome h (by rw [he]; rfl)⟩
  send := hf.send.map fun n ⟨e, he, h⟩ => ⟨e, he, servedStep_isSome h (by rw [he]; rfl)⟩

/-- **The last advertisement is delivered in the end**: with RA detection, in every fair run that goes on forever from
process start, in which no change is sent in the window and every call is fair, and in which from some time on no packet
announces a prefix and no SIGUSR1 is delivered, the process comes to rest for good; its last cycle has detected the
prefix of the last packet that has one, and unless one of its calls failed the server has the address with this prefix
for its hosts (for the last entry of each domain). -/
theorem delivered_finally {u : LossyUpdater σ} {D : String → Prop} (hs : ServesAs u v D) {interface : String}
    (hra : cfg.method = .ra interface) {w : σ} (r : InfiniteRun (servedStep cfg v)) (hinit : r.state 0 = .init w)
    (hf : FairProcess r) (hw : ∀ n, NoSendInWindow (r.state n).task (r.event n))
    (hc : ∀ n, FairCall u D (r.state n) (r.event n)) (n : ℕ)
    (hn : ∀ m, n ≤ m → ¬IsNews cfg (r.state m).task (r.event m)) :
    ∃ m, n ≤ m ∧ ∀ k, m ≤ k → (r.state k).task.AtRest ∧ ∃ h a c,
      run (recorded cfg v) (.init w, .empty) (r.events k) = some (r.state k, h) ∧
      run (sourceStep cfg.method v) (h.start v w) h.events = some a ∧ a.cycles.head? = some c ∧
      UpToDate h (u.records (r.state k).world) c := by
  have hstart : run (taskStep cfg) .init [] = some ((tasksOf r).state 0) :=
    congrArg (fun s => some (Served.task s)) hinit.symm
  obtain ⟨m, hm, hrest⟩ := settles cfg (tasksOf r) hstart hf.tasks n hn
  refine ⟨m, hm, fun k hk => ⟨hrest k hk, ?_⟩⟩
  have hrun := r.run_events k
  have hwindow : Along (servedStep cfg v) (fun s e => NoSendInWindow s.task e) (r.state 0) (r.events k) :=
    InfiniteRun.along_events hw k
  have hcalls := InfiniteRun.along_events hc k
  rw [hinit] at hrun hwindow hcalls
  obtain ⟨h, hr⟩ : ∃ h, run (recorded cfg v) (.init w, .empty) (r.events k) = some (r.state k, h) := run_observed hrun
  obtain ⟨a, c, ha, hlast, hu⟩ := quiet_delivered hs hra hr hwindow hcalls (hrest k hk).quiet
  exact ⟨h, a, c, hr, ha, hlast, hu⟩

end Served

/-- Up to the second packet, and what the process does about it. -/
def sampleHeard : List TaskEvent := sampleReadvertised.take 11

def sampleReaction : List TaskEvent := sampleReadvertised.drop 11

/-- The process after these events, with an empty name server at first. -/
def servedAfter (es : List TaskEvent) : Served RemoteNameServer :=
  (run (servedStep sampleSetup nameServerUpdater.toDnsUpdater) (.init ⟨fun _ => [], []⟩) es).getD
    (.init ⟨fun _ => [], []⟩)

/-- From then on packets come that are none. -/
def delivered : InfiniteRun (servedStep sampleSetup nameServerUpdater.toDnsUpdater) :=
  .loop (servedAfter sampleReadvertised) [.listener (.packet [])] (by decide) rfl

def reacting : InfiniteRun (servedStep sampleSetup nameServerUpdater.toDnsUpdater) :=
  .prepend (servedAfter sampleHeard) sampleReaction delivered rfl

def delivering : InfiniteRun (servedStep sampleSetup nameServerUpdater.toDnsUpdater) :=
  .prepend (.init ⟨fun _ => [], []⟩) sampleHeard reacting rfl

section Delivering

variable {P : Served RemoteNameServer → TaskEvent → Prop}

theorem reacting_forall
    (h : Along (servedStep sampleSetup nameServerUpdater.toDnsUpdater) P (servedAfter sampleHeard) sampleReaction)
    (hp : ∀ s, P s (.listener (.packet []))) (n : ℕ) : P (reacting.state n) (reacting.event n) := by
  refine InfiniteRun.prepend_forall h (InfiniteRun.loop_forall (P := P) fun s e he => ?_) n
  rw [List.mem_singleton.1 he]
  exact hp s

theorem delivering_forall
    (h : Along (servedStep sampleSetup nameServerUpdater.toDnsUpdater) P (.init ⟨fun _ => [], []⟩) sampleHeard)
    (h' : Along (servedStep sampleSetup nameServerUpdater.toDnsUpdater) P (servedAfter sampleHeard) sampleReaction)
    (hp : ∀ s, P s (.listener (.packet []))) (n : ℕ) : P (delivering.state n) (delivering.event n) :=
  InfiniteRun.prepend_forall h (reacting_forall h' hp) n

theorem delivering_fair {A : TaskEvent → Prop}
    (hs : ¬Enabled (taskStep sampleSetup) A (servedAfter sampleReadvertised).task) : delivering.Fair A := by
  have hserved : ¬Enabled (servedStep sampleSetup nameServerUpdater.toDnsUpdater) A
      (servedAfter sampleReadvertised) := by
    rintro ⟨e, he, h⟩
    obtain ⟨t, ht⟩ := Option.isSome_iff_exists.1 h
    exact hs ⟨e, he, Option.isSome_iff_exists.2 ⟨_, (taskStep_of_servedStep ht).1⟩⟩
  exact (InfiniteRun.loop_fair_of_disabled (h := rfl) hserved).prepend.prepend

end Delivering

set_option maxRecDepth 4000 in
/-- The second packet is still to be announced, and comes to the name server. -/
theorem delivered_finally_nas : (delivering.state 11).task.Sending ∧ ∃ m, 11 ≤ m ∧ ∀ k, m ≤ k →
    (delivering.state k).task.AtRest ∧ ∃ h a c,
      run (recorded sampleSetup nameServerUpdater.toDnsUpdater) (.init ⟨fun _ => [], []⟩, .empty)
        (delivering.events k) = some (delivering.state k, h) ∧
      run (sourceStep sampleSetup.method nameServerUpdater.toDnsUpdater)
        (h.start nameServerUpdater.toDnsUpdater ⟨fun _ => [], []⟩) h.events = some a ∧ a.cycles.head? = some c ∧
      UpToDate h (nameServerLossy.records (delivering.state k).world) c := by
  have hf : FairProcess delivering := by
    refine ⟨delivering_fair (main_disabled rfl (TaskState.reasons_eq_zero.1 rfl) rfl), delivering_fair ?_,
      delivering_fair ?_⟩
    · rintro ⟨_, rfl, ht⟩
      cases ht
    · rintro ⟨_, rfl, ht⟩
      cases ht
  have hw : ∀ n, NoSendInWindow (delivering.state n).task (delivering.event n) :=
    delivering_forall (P := fun s e => NoSendInWindow s.task e) (by decide) (by decide) fun _ => trivial
  have hc : ∀ n, FairCall nameServerLossy (fun _ => True) (delivering.state n) (delivering.event n) :=
    delivering_forall (Along.imp (fun _ _ => SuccessfulCall.fair) (by decide))
      (Along.imp (fun _ _ => SuccessfulCall.fair) (by decide)) fun _ => trivial
  have hold : ∀ e ∈ sampleReaction, ∀ s, ¬IsNews sampleSetup s e := by
    intro e he s hn
    cases hn <;> simp [sampleReaction, sampleReadvertised, sampleStartup] at he
  have hpacket : ∀ s, ¬IsNews sampleSetup s (.listener (.packet [])) := by
    rintro s (_ | _ | hp)
    cases hp
  have hn : ∀ n, ¬IsNews sampleSetup (reacting.state n).task (reacting.event n) :=
    reacting_forall (P := fun s e => ¬IsNews sampleSetup s.task e)
      (Along.imp (fun s _ hn => hn s.task) (along_of_forall hold)) fun s => hpacket s.task
  exact ⟨rfl, delivered_finally rfc2136_servesAs rfl delivering rfl hf hw hc 11 fun m (hm : sampleHeard.length ≤ m) =>
    InfiniteRun.prepend_forall_from (P := fun (s : Served RemoteNameServer) e => ¬IsNews sampleSetup s.task e) hn m hm⟩

end DdnsIpv6

import DdnsIpv6.Tasks.Causes
import DdnsIpv6.Tasks.Listener
import DdnsIpv6.Lib.Fair
import Mathlib.Data.Prod.Lex

/-!
# Every cause is answered in the end

A process that goes on forever, in which no task stands still for good while it could take a step; for the main task
this says that all its remote calls return. Then the main task always comes back to `select!` (`returns_to_select`), and
whatever asks for a cycle gets one, which goes to its end: a SIGUSR1 that was received, a stored permit, an unseen
change, or a change that is about to be sent to the loop (`asked_answered`).
-/

namespace DdnsIpv6

open Lib

/-- How far the main task is from `select!`, or from its end. -/
def MainPc.distance : MainPc → ℕ ×ₗ ℕ
  | .start => toLex (12, 0)
  | .building => toLex (11, 0)
  | .built => toLex (10, 0)
  | .seeding todo => toLex (9, todo.length)
  | .cycle _ .called => toLex (8, 0)
  | .cycle _ .detecting => toLex (7, 0)
  | .cycle _ (.discovering _) => toLex (6, 0)
  | .cycle _ (.updating _ todo) => toLex (5, todo.length)
  | .cycle _ .failed => toLex (5, 0)
  | .settingUp => toLex (4, 0)
  | .subscribing => toLex (3, 0)
  | .parked => toLex (2, 0)
  | .stopped | .killed => toLex (1, 0)

/-- `select!` is left for a cycle. -/
def BeginsCycle (s t : TaskState) : Prop := s.pc = .parked ∧ t.pc = .cycle false .called

/-- The main loop has a reason for a cycle. -/
def TaskState.Woken (s : TaskState) : Prop := s.signals.permit = true ∨ s.Unseen

/-- Something asks the main loop for a cycle. -/
def TaskState.Asked (s : TaskState) : Prop :=
  s.Woken ∨ s.signals.usr1Received = true ∨ s.Sending ∧ s.pc.inLoop = true

section Steps

variable {cfg : Setup} {s t : TaskState} {m : MainEvent} {e : TaskEvent}

/-- **The main task comes closer to `select!`** with every step, unless it leaves it for a cycle. -/
theorem mainStep_closer (h : mainStep cfg s m = some t) : BeginsCycle s t ∨ t.pc.distance < s.pc.distance := by
  have hlex : ∀ {a b c d : ℕ}, a < c ∨ a = c ∧ b < d → toLex (a, b) < toLex (c, d) := fun hlt =>
    Prod.Lex.toLex_lt_toLex.2 hlt
  cases mainStep_cases h with
  | changed r r' hpc hr hc => exact Or.inl ⟨hpc, rfl⟩
  | notified hpc hp => exact Or.inl ⟨hpc, rfl⟩
  | seedRecord answer e todo hpc | host outcome startup p suffix domain todo hpc =>
    rw [hpc]
    exact Or.inr (hlex (Or.inr ⟨rfl, Nat.lt_succ_self _⟩))
  | detectReturns answers startup c hpc ok error =>
    rw [hpc]
    refine Or.inr ?_
    cases hd : detect cfg.method (s.listener.bind Listener.last) answers with
    | ok p =>
      obtain rfl := ok p hd
      exact hlex (Or.inl (by decide))
    | error e =>
      obtain rfl := error e hd
      exact hlex (Or.inl (by decide))
  | endCycle startup c hpc hc =>
    rw [hpc]
    refine Or.inr ?_
    rcases hc with rfl | ⟨p, rfl⟩ <;> cases startup <;> exact hlex (Or.inl (by decide))
  | spawnListener hpc | newReturns hpc | seedHosts discovered hpc | startupCycle hpc | callDetect startup hpc
  | discovered hosts startup p hpc | spawnSignalTasks hpc | subscribe hpc | cancelled hpc hc =>
    rw [hpc]
    exact Or.inr (hlex (Or.inl (by decide)))

/-- The other tasks leave the main task where it is, if they do not kill it. -/
theorem taskStep_closer (h : taskStep cfg s e = some t) (hlive : t.pc ≠ .killed) : BeginsCycle s t ∨
    t.pc.distance ≤ s.pc.distance ∧ (e.isMain = true → t.pc.distance < s.pc.distance) := by
  obtain ⟨-, ⟨m, rfl, hm⟩ | ⟨l, rfl, hl⟩ | ⟨g, rfl, hg⟩⟩ := taskStep_cases h
  · exact (mainStep_closer hm).imp_right fun hlt => ⟨hlt.le, fun _ => hlt⟩
  · obtain ⟨hpc, -⟩ := listenerStep_frame hl
    exact Or.inr ⟨(congrArg MainPc.distance hpc).le, fun hmain => by cases hmain⟩
  · obtain ⟨-, -, -, -, -, hpc⟩ := signalStep_frame hg
    exact Or.inr ⟨(congrArg MainPc.distance (hpc.resolve_right hlive)).le, fun hmain => by cases hmain⟩

/-- **The main task can go on** wherever it stands, in `select!` if it has a reason to. -/
theorem main_enabled (hstopped : s.pc ≠ .stopped) (hkilled : s.pc ≠ .killed) (hp : s.pc = .parked → s.Woken) :
    Enabled (taskStep cfg) (fun e => e.isMain = true) s := by
  have hstep : ∀ m, (mainStep cfg s m).isSome = true → Enabled (taskStep cfg) (fun e => e.isMain = true) s := by
    intro m hm
    refine ⟨.main m, rfl, ?_⟩
    rw [taskStep, if_neg (not_or.2 ⟨hstopped, hkilled⟩)]
    exact hm
  cases hpc : s.pc with
  | start => exact hstep .spawnListener (by simp only [mainStep, hpc, Option.isSome_some])
  | building => exact hstep .newReturns (by simp only [mainStep, hpc, Option.isSome_some])
  | built => exact hstep (.seedHosts none) (by simp only [mainStep, hpc, Option.isSome_some])
  | seeding todo =>
    cases todo with
    | nil => exact hstep .startupCycle (by simp only [mainStep, hpc, Option.isSome_some])
    | cons e todo => exact hstep (.seedRecord (.ok none)) (by simp only [mainStep, hpc, Option.isSome_some])
  | cycle startup c =>
    cases c with
    | called => exact hstep .callDetect (by simp only [mainStep, hpc, Option.isSome_some])
    | detecting =>
      exact hstep (.detectReturns ⟨.error "", .error ""⟩) (by simp only [mainStep, hpc, Option.isSome_some])
    | discovering p => exact hstep (.discovered none) (by simp only [mainStep, hpc, Option.isSome_some])
    | updating p todo =>
      cases todo with
      | nil => exact hstep .endCycle (by simp only [mainStep, hpc, Option.isSome_some])
      | cons e todo => exact hstep (.host (.ok ())) (by simp only [mainStep, hpc, Option.isSome_some])
    | failed => exact hstep .endCycle (by simp only [mainStep, hpc, Option.isSome_some])
  | settingUp => exact hstep .spawnSignalTasks (by simp only [mainStep, hpc, Option.isSome_some])
  | subscribing => exact hstep .subscribe (by simp only [mainStep, hpc, Option.isSome_some])
  | parked =>
    rcases hp hpc with hpermit | ⟨r, hr, hu⟩
    · exact hstep .notified (by simp only [mainStep, hpc, hpermit, if_true, Option.isSome_some])
    · have hchanged : r.changed s.chan = some ⟨s.chan.version⟩ := Watch.changed_eq_some.2 ⟨hu, rfl⟩
      refine hstep .changed ?_
      simp only [mainStep, hpc, hr, Option.bind_some, hchanged, Option.map_some, Option.isSome_some]
  | stopped => exact absurd hpc hstopped
  | killed => exact absurd hpc hkilled

/-- The task of the signal can act on a SIGUSR1 that was received. -/
theorem notifyOne_enabled (hstopped : s.pc ≠ .stopped) (hkilled : s.pc ≠ .killed)
    (hu : s.signals.usr1Received = true) : Enabled (taskStep cfg) (fun e => e = .signal .notifyOne) s := by
  refine ⟨_, rfl, ?_⟩
  rw [taskStep, if_neg (not_or.2 ⟨hstopped, hkilled⟩)]
  simp only [signalStep, if_pos hu, Option.isSome_some]

/-- The listener can send. -/
theorem send_enabled (hstopped : s.pc ≠ .stopped) (hkilled : s.pc ≠ .killed) (hs : s.Sending) :
    Enabled (taskStep cfg) (fun e => e = .listener .send) s := by
  obtain ⟨l, hl, hpc⟩ := Option.map_eq_some_iff.1 hs
  refine ⟨_, rfl, ?_⟩
  rw [taskStep, if_neg (not_or.2 ⟨hstopped, hkilled⟩)]
  simp only [listenerStep, hl, hpc, Option.isSome_some]

/-- **A reason for a cycle stays** until a cycle begins. -/
theorem woken_step (hrec : ReceiverInv s) (hw : s.Woken) (h : taskStep cfg s e = some t) :
    BeginsCycle s t ∨ t.Woken := by
  obtain ⟨hlive, ⟨m, rfl, hm⟩ | ⟨l, rfl, hl⟩ | ⟨g, rfl, hg⟩⟩ := taskStep_cases h
  · cases mainStep_cases hm with
    | changed r r' hpc hr hc => exact Or.inl ⟨hpc, rfl⟩
    | notified hpc hp => exact Or.inl ⟨hpc, rfl⟩
    | spawnListener hpc | newReturns hpc | subscribe hpc =>
      -- the main task has no receiver yet
      have hrx : s.rx = none := hrec.early (by rw [hpc]; rfl)
      exact Or.inr (Or.inl (hw.resolve_right (not_unseen_of_none hrx)))
    | seedHosts discovered hpc | seedRecord answer e todo hpc | startupCycle hpc | callDetect startup hpc
    | detectReturns answers startup c hpc ok error | discovered hosts startup p hpc
    | host outcome startup p suffix domain todo hpc | endCycle startup c hpc hc | spawnSignalTasks hpc
    | cancelled hpc hc => exact Or.inr hw
  · obtain ⟨-, hrx, -, -, hchan⟩ := listenerStep_frame hl
    refine Or.inr (hw.imp (fun hp => by rw [listenerStep_signals hl]; exact hp) fun hu => ?_)
    rcases hchan with ⟨-, hchan, -⟩ | ⟨-, hchan, -⟩
    · obtain ⟨r, hr, -⟩ := hu
      exact unseen_of_send hrec (by rw [hr]; exact Option.some_ne_none r) hrx hchan
    · exact (unseen_congr hrx hchan).2 hu
  · obtain ⟨-, hchan, hrx, -⟩ := signalStep_frame hg
    refine Or.inr (hw.imp (fun hp => ?_) (unseen_congr hrx hchan).2)
    cases g with
    | sigterm =>
      cases hg
      exact hp
    | listenInt | listenUsr1 | sigint | sigusr1 | cancel | notifyOne =>
      simp only [signalStep] at hg
      split at hg <;> cases hg <;> first | exact hp | rfl

/-- The main task leaves to the signal tasks what they received, and the token. -/
theorem mainStep_received (h : mainStep cfg s m = some t) : t.signals.usr1Received = s.signals.usr1Received ∧
    t.signals.intReceived = s.signals.intReceived ∧ t.signals.cancelled = s.signals.cancelled := by
  cases mainStep_cases h with
  | spawnListener hpc | newReturns hpc | seedHosts discovered hpc | seedRecord answer e todo hpc | startupCycle hpc
  | callDetect startup hpc | detectReturns answers startup c hpc ok error | discovered hosts startup p hpc
  | host outcome startup p suffix domain todo hpc | endCycle startup c hpc hc | spawnSignalTasks hpc | subscribe hpc
  | changed r r' hpc hr hc | notified hpc hp | cancelled hpc hc => exact ⟨rfl, rfl, rfl⟩

/-- A SIGUSR1 that was received stays so until its task stores the permit. -/
theorem received_step (hu : s.signals.usr1Received = true) (h : taskStep cfg s e = some t) :
    e ≠ .signal .notifyOne ∧ t.signals.usr1Received = true ∨ t.signals.permit = true := by
  obtain ⟨-, ⟨m, rfl, hm⟩ | ⟨l, rfl, hl⟩ | ⟨g, rfl, hg⟩⟩ := taskStep_cases h
  · exact Or.inl ⟨(fun he => by cases he), (mainStep_received hm).1.trans hu⟩
  · refine Or.inl ⟨(fun he => by cases he), ?_⟩
    rw [listenerStep_signals hl]
    exact hu
  · cases g with
    | notifyOne =>
      simp only [signalStep, if_pos hu] at hg
      cases hg
      exact Or.inr rfl
    | sigterm =>
      cases hg
      exact Or.inl ⟨(fun he => by cases he), hu⟩
    | listenInt | listenUsr1 | sigint | sigusr1 | cancel =>
      simp only [signalStep] at hg
      split at hg <;> cases hg <;>
        first
          | exact Or.inl ⟨(fun he => by cases he), hu⟩
          | exact Or.inl ⟨(fun he => by cases he), rfl⟩

/-- A change that is about to be sent to the loop stays so until it is sent. -/
theorem sending_step (hrec : ReceiverInv s) (hs : s.Sending) (hloop : s.pc.inLoop = true)
    (h : taskStep cfg s e = some t) : e ≠ .listener .send ∧ t.Sending ∧ t.pc.inLoop = true ∨ t.Unseen := by
  obtain ⟨hlive, ⟨m, rfl, hm⟩ | ⟨l, rfl, hl⟩ | ⟨g, rfl, hg⟩⟩ := taskStep_cases h
  · have hstay : t.listener = s.listener → t.pc.inLoop = true →
        TaskEvent.main m ≠ .listener .send ∧ t.Sending ∧ t.pc.inLoop = true := fun hl hpc =>
      ⟨(fun he => by cases he), (sending_congr hl).2 hs, hpc⟩
    cases mainStep_effect hm with
    | startup before =>
      rw [before] at hloop
      cases hloop
    | subscribe before after =>
      rw [before] at hloop
      cases hloop
    | callDetect before after | endCycle before called after | stop before after =>
      subst after
      exact Or.inl (hstay rfl rfl)
    | cycle before after called rx chan listener pending lastPoll => exact Or.inl (hstay listener (by rw [after]; rfl))
    | wake before after rx chan listener noted => exact Or.inl (hstay listener (by rw [after]; rfl))
  · obtain ⟨ls, hls, hcase⟩ := listenerStep_cases hl
    have hsending : ls.pc = .sending := by
      rw [TaskState.Sending, hls] at hs
      exact Option.some.inj hs
    cases hcase with
    | send hpc => exact Or.inr (unseen_of_send hrec (hrec.subscribed hloop hlive) rfl rfl)
    | pollBegin _ _ hpc | pollChanged _ _ _ _ hpc | pollSame _ _ _ _ hpc | pollFailed _ _ _ _ hpc | packet _ _ _ hpc
    | address _ _ _ hpc => cases hpc.symm.trans hsending
  · obtain ⟨-, -, -, hl, -, hpc⟩ := signalStep_frame hg
    refine Or.inl ⟨(fun he => by cases he), (sending_congr hl).2 hs, ?_⟩
    rcases hpc with hpc | hpc <;> rw [hpc]
    · exact hloop
    · rfl

/-- The main task leaves a cycle of its loop for `select!`. -/
theorem inCycle_step (hc : s.pc.inCycle = true) (h : taskStep cfg s e = some t) (hlive : t.pc ≠ .killed) :
    t.pc.inCycle = true ∨ t.pc = .parked := by
  have hloop : s.pc.inLoop = true := by
    unfold MainPc.inCycle at hc
    split at hc
    · rename_i hpc
      rw [hpc]
      rfl
    · cases hc
  obtain ⟨-, ⟨m, rfl, hm⟩ | ⟨l, rfl, hl⟩ | ⟨g, rfl, hg⟩⟩ := taskStep_cases h
  · cases mainStep_effect hm with
    | startup before =>
      rw [before] at hloop
      cases hloop
    | subscribe before after | wake before after | stop before after =>
      rw [before] at hc
      cases hc
    | callDetect before after =>
      subst after
      exact Or.inl rfl
    | endCycle before called after =>
      subst after
      exact Or.inr rfl
    | cycle before after =>
      rw [after]
      exact Or.inl rfl
  · obtain ⟨hpc, -⟩ := listenerStep_frame hl
    rw [hpc]
    exact Or.inl hc
  · obtain ⟨-, -, -, -, -, hpc⟩ := signalStep_frame hg
    rw [hpc.resolve_right hlive]
    exact Or.inl hc

end Steps

/-! ## Processes that go on forever -/

section Forever

variable {cfg : Setup} {r : InfiniteRun (taskStep cfg)} {n : ℕ}

/-- No task stands still for good while it could take a step. -/
structure FairTasks (r : InfiniteRun (taskStep cfg)) : Prop where
  main : r.Fair fun e => e.isMain = true
  notifyOne : r.Fair fun e => e = .signal .notifyOne
  send : r.Fair fun e => e = .listener .send

/-- A process that goes on forever is neither stopped nor killed. -/
theorem forever_live (r : InfiniteRun (taskStep cfg)) (n : ℕ) :
    (r.state n).pc ≠ .stopped ∧ (r.state n).pc ≠ .killed := by
  have h := r.step_eq n
  unfold taskStep at h
  split at h
  · cases h
  · rename_i hpc
    exact not_or.1 hpc

/-- **The main task always comes back to `select!`.** -/
theorem returns_to_select (hf : r.Fair fun e => e.isMain = true) (n : ℕ) : ∃ m, n ≤ m ∧ (r.state m).pc = .parked := by
  refine hf.eventually (P := fun _ => True) (G := fun m => (r.state m).pc = .parked)
    (fun m => (r.state m).pc.distance) (fun m _ hG => ?_) (fun m _ hG => ?_) trivial
  · exact main_enabled (forever_live r m).1 (forever_live r m).2 fun hp => absurd hp hG
  · rcases taskStep_closer (r.step_eq m) (forever_live r (m + 1)).2 with hbegins | hcloser
    · exact absurd hbegins.1 hG
    · exact ⟨trivial, hcloser⟩

/-- A reason for a cycle leads to one. -/
theorem woken_answered (hf : r.Fair fun e => e.isMain = true) (hrec : ∀ n, ReceiverInv (r.state n))
    (hw : (r.state n).Woken) : ∃ m, n ≤ m ∧ BeginsCycle (r.state m) (r.state (m + 1)) := by
  refine hf.eventually (P := fun m => (r.state m).Woken) (G := fun m => BeginsCycle (r.state m) (r.state (m + 1)))
    (fun m => (r.state m).pc.distance) (fun m hm _ => ?_) (fun m hm hG => ?_) hw
  · exact main_enabled (forever_live r m).1 (forever_live r m).2 fun _ => hm
  · refine ⟨(woken_step (hrec m) hm (r.step_eq m)).resolve_left hG, ?_⟩
    exact (taskStep_closer (r.step_eq m) (forever_live r (m + 1)).2).resolve_left hG

/-- What asks for a cycle becomes a reason for one. -/
theorem asked_woken (hf : FairTasks r) (hrec : ∀ n, ReceiverInv (r.state n)) (ha : (r.state n).Asked) :
    ∃ m, n ≤ m ∧ (r.state m).Woken := by
  have hlive := forever_live r
  rcases ha with hw | hu | hs
  · exact ⟨n, le_rfl, hw⟩
  · have hstored : ∃ m, n ≤ m ∧ (r.state (m + 1)).Woken := by
      refine hf.notifyOne.eventually (P := fun m => (r.state m).signals.usr1Received = true) (fun _ => (0 : ℕ))
        (fun m hu _ => notifyOne_enabled (hlive m).1 (hlive m).2 hu) (fun m hu hG => ?_) hu
      obtain ⟨hne, hu⟩ := (received_step hu (r.step_eq m)).resolve_right fun hp => hG (Or.inl hp)
      exact ⟨hu, le_rfl, fun he => absurd he hne⟩
    obtain ⟨m, hm, hw⟩ := hstored
    exact ⟨m + 1, Nat.le_succ_of_le hm, hw⟩
  · have hsent : ∃ m, n ≤ m ∧ (r.state (m + 1)).Woken := by
      refine hf.send.eventually (P := fun m => (r.state m).Sending ∧ (r.state m).pc.inLoop = true) (fun _ => (0 : ℕ))
        (fun m hs _ => send_enabled (hlive m).1 (hlive m).2 hs.1) (fun m hs hG => ?_) hs
      obtain ⟨hne, hs⟩ := (sending_step (hrec m) hs.1 hs.2 (r.step_eq m)).resolve_right fun hu => hG (Or.inr hu)
      exact ⟨hs, le_rfl, fun he => absurd he hne⟩
    obtain ⟨m, hm, hw⟩ := hsent
    exact ⟨m + 1, Nat.le_succ_of_le hm, hw⟩

/-- A cycle that begins goes to its end. -/
theorem cycle_ends (hf : r.Fair fun e => e.isMain = true) (hb : BeginsCycle (r.state n) (r.state (n + 1))) :
    ∃ k, n < k ∧ (r.state k).pc = .parked ∧ ∀ j, n < j → j < k → (r.state j).pc.inCycle = true := by
  have hreturns : ∃ k, n + 1 ≤ k ∧ (r.state k).pc = .parked := returns_to_select hf (n + 1)
  obtain ⟨hk, hparked⟩ := Nat.find_spec hreturns
  refine ⟨Nat.find hreturns, hk, hparked, fun j hj => ?_⟩
  induction j, hj using Nat.le_induction with
  | base =>
    intro _
    rw [hb.2]
    rfl
  | succ j hj ih =>
    intro hlt
    have hnot : (r.state (j + 1)).pc ≠ .parked := fun hp => Nat.find_min hreturns hlt ⟨Nat.le_succ_of_le hj, hp⟩
    exact (inCycle_step (ih (Nat.lt_of_succ_lt hlt)) (r.step_eq j) (forever_live r (j + 1)).2).resolve_right hnot

/-- **Every cause is answered in the end**: in a fair run that goes on forever, from any reachable state, whatever asks
for a cycle is followed by one, which goes to its end. -/
theorem asked_answered (cfg : Setup) (r : InfiniteRun (taskStep cfg)) {es : List TaskEvent}
    (hr : run (taskStep cfg) .init es = some (r.state 0)) (hf : FairTasks r) (n : ℕ) (ha : (r.state n).Asked) :
    ∃ m k, n ≤ m ∧ m < k ∧ BeginsCycle (r.state m) (r.state (m + 1)) ∧ (r.state k).pc = .parked ∧
      ∀ j, m < j → j < k → (r.state j).pc.inCycle = true := by
  have hstart : ReceiverInv (r.state 0) := run_inv (fun _ _ _ hi h => receiverInv_step hi h) receiverInv_init hr
  have hrec : ∀ n, ReceiverInv (r.state n) := InfiniteRun.inv (fun _ _ _ hi h => receiverInv_step hi h) hstart
  obtain ⟨m, hm, hw⟩ := asked_woken hf hrec ha
  obtain ⟨j, hj, hb⟩ := woken_answered hf.main hrec hw
  obtain ⟨k, hk, hparked, hcycle⟩ := cycle_ends hf.main hb
  exact ⟨j, k, hm.trans hj, hk, hb, hparked, hcycle⟩

end Forever

/-- The main loop is parked, and the handler of SIGUSR1 is installed. -/
def parkedState : TaskState where
  pc := .parked
  cache := fun _ => none
  chan := ⟨0, 1⟩
  rx := some ⟨0⟩
  listener := some ⟨.idle, none⟩
  signals := ⟨true, false, false, true, false, false, false⟩
  noted := ⟨true, false, false, none⟩

/-- A SIGUSR1 and its cycle, in a network without an address. -/
def refreshEvents : List TaskEvent :=
  [.signal .sigusr1, .signal .notifyOne, .main .notified, .main .callDetect,
    .main (.detectReturns ⟨.error "", .ok (.ok [])⟩), .main .endCycle]

/-- One SIGUSR1 after the other. -/
def refreshing : InfiniteRun (taskStep netlinkSetup) := .loop parkedState refreshEvents (by decide) rfl

/-- Each of them is answered. -/
theorem asked_answered_refresh : (refreshing.state 1).Asked ∧
    ∃ m k, 1 ≤ m ∧ m < k ∧ BeginsCycle (refreshing.state m) (refreshing.state (m + 1)) ∧
      (refreshing.state k).pc = .parked ∧ ∀ j, m < j → j < k → (refreshing.state j).pc.inCycle = true := by
  have hf : FairTasks refreshing :=
    ⟨InfiniteRun.loop_fair (i := 2) (by decide) rfl, InfiniteRun.loop_fair (i := 1) (by decide) rfl,
      InfiniteRun.loop_fair_of_disabled fun ⟨_, he, ht⟩ => by subst he; cases ht⟩
  have hr : run (taskStep netlinkSetup) .init (startupEvents ++ enterEvents ++ [.signal .listenUsr1]) =
    some (refreshing.state 0) := rfl
  have ha : (refreshing.state 1).Asked := Or.inr (Or.inl rfl)
  exact ⟨ha, asked_answered netlinkSetup refreshing hr hf 1 ha⟩

end DdnsIpv6

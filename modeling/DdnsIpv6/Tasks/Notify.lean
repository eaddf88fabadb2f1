import DdnsIpv6.Tasks

/-!
# Change notifications of the main loop

A change that the listener sends after the startup cycle's `detect()` has returned is `pending` until the next call of
`detect()`. It stays unseen until the main loop takes it, and then a cycle calls `detect()`: once the loop is
subscribed, a parked main task with nothing unseen has nothing pending. Before that the channel has no receiver, and a
change sent between the startup cycle's `detect()` and `detector.changes()` is dropped. These are the only ones that are
lost (`no_lost_change`, `lost_in_window`).
-/

namespace DdnsIpv6

open Lib Lib.WriteThrough Prefix

variable {cfg : Setup} {s t : TaskState} {e : TaskEvent} {es : List TaskEvent}

/-- The step is not a send between the return of the startup cycle's `detect()` and `detector.changes()`. -/
def NoSendInWindow (s : TaskState) : TaskEvent → Prop
  | .listener .send => s.pc.inWindow = false
  | _ => True

instance (s : TaskState) : (e : TaskEvent) → Decidable (NoSendInWindow s e)
  | .listener .send => inferInstanceAs (Decidable (_ = _))
  | .listener .pollBegin | .listener (.pollEnd _) | .listener (.packet _) | .listener (.address _) => isTrue trivial
  | .main _ | .signal _ => isTrue trivial

/-- What the steps keep: a pending change is unseen, or a cycle is about to call `detect()`. -/
structure NotifyInv (s : TaskState) : Prop extends ReceiverInv s where
  window : s.noted.startupDetected = true → s.pc.inWindow = true ∨ s.pc.inLoop = true
  pending : s.noted.pending = true → s.Unseen ∨ s.pc = .cycle false .called ∨ s.pc = .killed

theorem notifyInv_init : NotifyInv .init := ⟨receiverInv_init, (fun hd => nomatch hd), (fun hp => nomatch hp)⟩

/-- Before the loop nothing is pending. -/
theorem NotifyInv.not_pending (hi : NotifyInv s) (hpc : s.pc.inLoop = false) : ¬s.noted.pending = true := by
  intro hp
  rcases hi.pending hp with hu | hc | hk
  · exact not_unseen_of_none (hi.early hpc) hu
  · rw [hc] at hpc
    cases hpc
  · rw [hk] at hpc
    cases hpc

/-- In the loop, unless a cycle is about to call `detect()`, a pending change is unseen. -/
theorem NotifyInv.unseen (hi : NotifyInv s) (hcalled : s.pc ≠ .cycle false .called) (hlive : s.pc ≠ .killed)
    (hp : s.noted.pending = true) : s.Unseen := by
  rcases hi.pending hp with hu | hc | hk
  · exact hu
  · exact absurd hc hcalled
  · exact absurd hk hlive

/-- The main task: a change is taken by a cycle, which calls `detect()`. -/
theorem pending_main {m : MainEvent} (hi : NotifyInv s) (hlive : s.pc ≠ .killed) (h : mainStep cfg s m = some t)
    (hp : t.noted.pending = true) : t.Unseen ∨ t.pc = .cycle false .called ∨ t.pc = .killed := by
  cases mainStep_effect h with
  | startup before _ _ _ _ _ pending _ _ =>
    rcases pending with hsame | ⟨_, hnone⟩
    · exact absurd (hsame.symm.trans hp) (hi.not_pending before)
    · rw [hnone] at hp
      cases hp
  | subscribe before after =>
    subst after
    exact absurd hp (hi.not_pending (by rw [before]; rfl))
  | callDetect before after =>
    subst after
    cases hp
  | cycle before after called rx chan _ pending _ =>
    refine Or.inl ((unseen_congr rx chan).2 (hi.unseen ?_ hlive (pending.symm.trans hp)))
    rw [before]
    simpa using called
  | endCycle before called after =>
    subst after
    refine Or.inl (hi.unseen ?_ hlive hp)
    rw [before]
    simpa using called
  | wake _ after _ _ _ _ => exact Or.inr (Or.inl after)
  | stop before after =>
    subst after
    exact Or.inl (hi.unseen (by rw [before]; simp) hlive hp)

/-- The main task goes through the window into the loop. -/
theorem window_main {m : MainEvent} (hi : NotifyInv s) (h : mainStep cfg s m = some t)
    (hd : t.noted.startupDetected = true) : t.pc.inWindow = true ∨ t.pc.inLoop = true := by
  cases mainStep_effect h with
  | startup before _ _ _ stays detected _ _ _ =>
    rcases detected hd with hs | hw
    · refine Or.inl (stays ((hi.window hs).resolve_right ?_))
      rw [before]
      exact Bool.false_ne_true
    · exact Or.inl hw
  | subscribe _ after | callDetect _ after | endCycle _ _ after | stop _ after =>
    subst after
    exact Or.inr rfl
  | cycle _ after _ _ _ _ _ _ | wake _ after _ _ _ _ =>
    rw [after]
    exact Or.inr rfl

/-- The listener: outside the window a change is sent to a receiver, or is not counted. -/
theorem pending_listener {l : ListenerEvent} (hi : NotifyInv s) (hlive : s.pc ≠ .killed)
    (hw : l = .send → s.pc.inWindow = false) (h : listenerStep cfg s l = some t) (hp : t.noted.pending = true) :
    t.Unseen ∨ t.pc = .cycle false .called ∨ t.pc = .killed := by
  obtain ⟨hpc, hrx, _, _, ⟨hsend, hchan, hpending⟩ | ⟨_, hchan, hpending⟩⟩ := listenerStep_frame h
  · by_cases hr : s.rx = none
    · -- nobody hears it, but the startup cycle's `detect()` is still to return
      have hdetected : s.noted.startupDetected = false := by
        by_contra hd
        rcases hi.window (by simpa using hd) with hin | hloop
        · rw [hw hsend] at hin
          cases hin
        · exact hi.subscribed hloop hlive hr
      rw [hpending, hdetected, Bool.or_false] at hp
      rw [hpc]
      exact Or.inr ((hi.pending hp).resolve_left (not_unseen_of_none hr))
    · exact Or.inl (unseen_of_send hi.toReceiverInv hr hrx hchan)
  · rw [unseen_congr hrx hchan, hpc]
    exact hi.pending (hpending.symm.trans hp)

/-- **Every step that is no send in the window keeps it.** -/
theorem notifyInv_step (hi : NotifyInv s) (hw : NoSendInWindow s e) (h : taskStep cfg s e = some t) : NotifyInv t := by
  have hrec := receiverInv_step hi.toReceiverInv h
  obtain ⟨hlive, ⟨m, rfl, hm⟩ | ⟨l, rfl, hl⟩ | ⟨g, rfl, hg⟩⟩ := taskStep_cases h
  · exact ⟨hrec, window_main hi hm, pending_main hi hlive hm⟩
  · refine ⟨hrec, ?_, pending_listener hi hlive (fun hsend => by subst hsend; exact hw) hl⟩
    obtain ⟨hpc, _, _, hdetected, _⟩ := listenerStep_frame hl
    rw [hpc, hdetected]
    exact hi.window
  · obtain ⟨_, hchan, hrx, _, hnoted, hpc | hpc⟩ := signalStep_frame hg
    · refine ⟨hrec, ?_, ?_⟩
      · rw [hnoted, hpc]
        exact hi.window
      · rw [hnoted, unseen_congr hrx hchan, hpc]
        exact hi.pending
    · refine ⟨hrec, fun _ => Or.inr ?_, fun _ => Or.inr (Or.inr hpc)⟩
      rw [hpc]
      rfl

/-- **No lost change notification**, for every detector and every interleaving from process start in which the listener
sends nothing in the window: a parked main task with nothing unseen called `detect()` after the last change was sent. -/
theorem no_lost_change (cfg : Setup) (hr : run (taskStep cfg) .init es = some t)
    (hw : Along (taskStep cfg) NoSendInWindow .init es) :
    t.pc = .parked → ¬t.Unseen → t.noted.pending = false := by
  intro hparked hseen
  have hi := run_inv_along (fun s e t hi hw h => notifyInv_step hi hw h) notifyInv_init hw hr
  by_contra hp
  exact hseen (hi.unseen (by rw [hparked]; simp) (by rw [hparked]; simp) (by simpa using hp))

/-! ## A change before the subscription -/

/-- A change that was sent in the window, with nobody to hear it. -/
structure Unheard (s : TaskState) : Prop where
  window : s.pc.inWindow = true ∨ s.pc = .killed
  rx : s.rx = none
  pending : s.noted.pending = true

/-- Until the main task subscribes, the change stays unheard. -/
theorem unheard_step (hu : Unheard s) (he : e ≠ .main .subscribe) (h : taskStep cfg s e = some t) : Unheard t := by
  obtain ⟨hlive, ⟨m, rfl, hm⟩ | ⟨l, rfl, hl⟩ | ⟨g, rfl, hg⟩⟩ := taskStep_cases h
  · have hw := hu.window.resolve_right hlive
    cases mainStep_effect hm with
    | startup _ _ _ rx stays _ pending _ _ =>
      refine ⟨Or.inl (stays hw), rx.trans hu.rx, ?_⟩
      rcases pending with hsame | ⟨hcalled, _⟩
      · exact hsame.trans hu.pending
      · rw [hcalled] at hw
        cases hw
    | subscribe _ _ => exact absurd rfl he
    | callDetect before _ | cycle before _ _ _ _ _ _ _ | endCycle before _ _ | wake before _ _ _ _ _ | stop before _ =>
      rw [before] at hw
      cases hw
  · obtain ⟨hpc, hrx, _, _, ⟨_, _, hpending⟩ | ⟨_, _, hpending⟩⟩ := listenerStep_frame hl
    · exact ⟨by rw [hpc]; exact hu.window, hrx.trans hu.rx, by rw [hpending, hu.pending]; rfl⟩
    · exact ⟨by rw [hpc]; exact hu.window, hrx.trans hu.rx, hpending.trans hu.pending⟩
  · obtain ⟨_, _, hrx, _, hnoted, hpc⟩ := signalStep_frame hg
    refine ⟨?_, hrx.trans hu.rx, by rw [hnoted]; exact hu.pending⟩
    rcases hpc with hpc | hpc
    · rw [hpc]
      exact hu.window
    · exact Or.inr hpc

/-- **A change sent in the window is lost**: whatever happens until the main task subscribes, it is then parked, sees no
change, and has not called `detect()` since the change was sent. -/
theorem lost_in_window {u v : TaskState} (hw : s.pc.inWindow = true) (hrx : s.rx = none)
    (hd : s.noted.startupDetected = true) (hsend : taskStep cfg s (.listener .send) = some t)
    (hr : run (taskStep cfg) t es = some u) (hes : Along (taskStep cfg) (fun _ e => e ≠ .main .subscribe) t es)
    (hsub : taskStep cfg u (.main .subscribe) = some v) : v.pc = .parked ∧ ¬v.Unseen ∧ v.noted.pending = true := by
  have ht : Unheard t := by
    obtain ⟨_, ⟨m, hm, _⟩ | ⟨l, hl, hstep⟩ | ⟨g, hg, _⟩⟩ := taskStep_cases hsend
    · cases hm
    · cases hl
      obtain ⟨hpc, hrx', _, _, ⟨_, _, hpending⟩ | ⟨hne, _⟩⟩ := listenerStep_frame hstep
      · refine ⟨by rw [hpc]; exact Or.inl hw, hrx'.trans hrx, ?_⟩
        rw [hpending, hd, Bool.or_true]
      · exact absurd rfl hne
    · cases hg
  have hu := run_inv_along (fun s e t hi he h => unheard_step hi he h) ht hes hr
  obtain ⟨_, ⟨m, hm, hstep⟩ | ⟨l, hl, _⟩ | ⟨g, hg, _⟩⟩ := taskStep_cases hsub
  · cases hm
    have hpc : u.pc = .subscribing := by
      cases hpc : u.pc <;> simp [mainStep, hpc] at hstep ⊢
    simp only [mainStep, hpc, Option.some.injEq] at hstep
    subst hstep
    refine ⟨rfl, ?_, hu.pending⟩
    rintro ⟨r, hr, hunseen⟩
    cases hr
    exact Bool.false_ne_true ((Watch.not_unseen_subscribe _).symm.trans hunseen)
  · cases hl
  · cases hg

/-- A netlink watcher and one host. -/
def netlinkSetup : Setup := ⟨.netlink "eth0", [(⟨0, 0, 0, 0, 0, 0, 0, 1⟩, "nas.example.com")]⟩

/-- Process start until the startup cycle's `detect()` has returned, having found no address. -/
def startupEvents : List TaskEvent :=
  [.main .spawnListener, .main .newReturns, .main (.seedHosts none), .main (.seedRecord (.ok none)),
    .main .startupCycle, .main .callDetect, .main (.detectReturns ⟨.error "", .ok (.ok [])⟩)]

/-- An address is added, and the listener sends. -/
def addressEvents : List TaskEvent := [.listener (.address true), .listener .send]

/-- The end of the startup cycle, and into the loop. -/
def enterEvents : List TaskEvent := [.main .endCycle, .main .spawnSignalTasks, .main .subscribe]

/-- A cycle that the change starts. -/
def cycleEvents : List TaskEvent :=
  [.main .changed, .main .callDetect,
    .main (.detectReturns
      ⟨.error "", .ok (.ok [⟨true, some (.v6 ⟨0x2001, 0xdb8, 0, 1, 0, 0, 0, 7⟩), false, true, none⟩])⟩),
    .main (.discovered none), .main (.host (.ok ())), .main .endCycle]

/-- A change after the subscription is followed by a cycle. -/
theorem no_lost_change_subscribed : ∃ t,
    run (taskStep netlinkSetup) .init (startupEvents ++ enterEvents ++ addressEvents ++ cycleEvents) = some t ∧
      t.pc = .parked ∧ ¬t.Unseen ∧ t.noted.pending = false :=
  ⟨_, rfl, by decide, by decide, no_lost_change netlinkSetup
    (show run _ _ (startupEvents ++ enterEvents ++ addressEvents ++ cycleEvents) = _ from rfl)
    (by decide) (by decide) (by decide)⟩

/-- A change before the subscription is lost: the main task is parked, sees no change, and has not called `detect()`
since it was sent. -/
theorem lost_change : ∃ t,
    run (taskStep netlinkSetup) .init (startupEvents ++ addressEvents ++ enterEvents) = some t ∧
      t.pc = .parked ∧ ¬t.Unseen ∧ t.noted.pending = true :=
  ⟨_, rfl, by decide⟩

end DdnsIpv6

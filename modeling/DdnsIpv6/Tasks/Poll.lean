import DdnsIpv6.Tasks

/-!
# The DNS poller and the cycles

The poller sends a change only when a poll gives another prefix than the poll before, so a cycle that leaves a host
behind is repeated only if the prefix changes again. What has to hold each time the main task goes (back) to `select!`
is that a change is outstanding, or that the poller's prefix has been published for all hosts (`ParksSettled`): then no
update is given up (`no_update_given_up`), and otherwise the next poll with the same prefix gives one up
(`given_up_of_unsettled`).
-/

namespace DdnsIpv6

open Lib Lib.WriteThrough Prefix

variable {cfg : Setup} {domain : String} {hosts : List (Ipv6Addr × String)} {s t : TaskState} {e : TaskEvent}
  {es : List TaskEvent} {p : Ipv6Addr}

/-- Every configured host has the prefix `p` in the cache. -/
def Synced (cfg : Setup) (s : TaskState) (p : Ipv6Addr) : Prop :=
  ∀ e ∈ cfg.staticSuffixes, s.cache e.2 = some (combine p e.1)

instance (cfg : Setup) (s : TaskState) (p : Ipv6Addr) : Decidable (Synced cfg s p) :=
  inferInstanceAs (Decidable (∀ _ ∈ _, _))

/-- The prefix that the poller remembers, if any, is that of every configured host in the cache. -/
def Settled (cfg : Setup) (s : TaskState) : Prop := ∀ l ∈ s.listener, ∀ p ∈ l.last, Synced cfg s p

instance (cfg : Setup) (s : TaskState) : Decidable (Settled cfg s) :=
  inferInstanceAs (Decidable (∀ _ ∈ _, ∀ _ ∈ _, _))

/-- A change is unseen by the main loop or about to be sent. -/
def Outstanding (s : TaskState) : Prop := s.Unseen ∨ s.Sending

instance (s : TaskState) : Decidable (Outstanding s) := inferInstanceAs (Decidable (_ ∨ _))

/-- An update is given up: the main task is parked and sees no change, the last poll, begun after the last cycle ended,
found `p`, and a configured host is not at `p`. -/
def GivenUp (cfg : Setup) (s : TaskState) : Prop :=
  s.pc = .parked ∧ ¬s.Unseen ∧ ∃ p, s.noted.lastPoll = some p ∧ ¬Synced cfg s p

/-- If the step takes the main task to `select!`, a change is outstanding or the poller's prefix is settled. -/
def ParksSettled (cfg : Setup) (s : TaskState) : TaskEvent → Prop
  | .main .subscribe => Outstanding s ∨ Settled cfg s
  | .main .endCycle => s.pc.inLoop = true → Outstanding s ∨ Settled cfg s
  | _ => True

instance (cfg : Setup) (s : TaskState) : (e : TaskEvent) → Decidable (ParksSettled cfg s e)
  | .main .subscribe => inferInstanceAs (Decidable (_ ∨ _))
  | .main .endCycle => inferInstanceAs (Decidable (_ → _))
  | .main .spawnListener | .main .newReturns | .main (.seedHosts _) | .main (.seedRecord _) | .main .startupCycle
  | .main .callDetect | .main (.detectReturns _) | .main (.discovered _) | .main (.host _) | .main .spawnSignalTasks
  | .main .changed | .main .notified | .main .cancelled => isTrue trivial
  | .listener _ | .signal _ => isTrue trivial

/-- What the steps keep. -/
structure PollInv (cfg : Setup) (s : TaskState) : Prop extends ReceiverInv s where
  unspawned : s.pc = .start → s.listener = none
  remembered : ∀ p, s.noted.lastPoll = some p → ∃ l, s.listener = some l ∧ l.last = some p ∧ l.pc ≠ .sending
  settled : s.pc = .parked → Outstanding s ∨ Settled cfg s

theorem pollInv_init : PollInv cfg .init :=
  ⟨receiverInv_init, fun _ => rfl, (fun _ hp => nomatch hp), (fun hp => nomatch hp)⟩

/-- A prefix is settled or not by the listener and the cache. -/
theorem settled_congr (hl : t.listener = s.listener) (hc : t.cache = s.cache) : Settled cfg t ↔ Settled cfg s := by
  unfold Settled Synced
  rw [hl, hc]

theorem sending_congr (hl : t.listener = s.listener) : t.Sending ↔ s.Sending := by
  unfold TaskState.Sending
  rw [hl]

/-- The main task. -/
theorem pollInv_main {m : MainEvent} (hi : PollInv cfg s) (hlive : s.pc ≠ .killed) (hp : ParksSettled cfg s (.main m))
    (h : mainStep cfg s m = some t) : PollInv cfg t := by
  have hrec := receiverInv_main hi.toReceiverInv hlive h
  cases mainStep_effect h with
  | startup before after moved _ _ _ _ listener lastPoll =>
    refine ⟨hrec, fun hpc => absurd hpc moved, fun p hl => ?_, fun hpc => ?_⟩
    · rcases lastPoll with hsame | hnone
      · obtain ⟨l, hs, hlast⟩ := hi.remembered p (hsame.symm.trans hl)
        rcases listener with hlis | hstart
        · exact ⟨l, hlis.trans hs, hlast⟩
        · rw [hi.unspawned hstart] at hs
          cases hs
      · rw [hnone] at hl
        cases hl
    · rw [hpc] at after
      cases after
  | subscribe before after =>
    subst after
    refine ⟨hrec, (fun hpc => nomatch hpc), hi.remembered, fun _ => ?_⟩
    rcases hp with (hu | hs) | hset
    · exact absurd hu (not_unseen_of_none (hi.early (by rw [before]; rfl)))
    · exact Or.inl (Or.inr hs)
    · exact Or.inr hset
  | callDetect before after =>
    subst after
    exact ⟨hrec, (fun hpc => nomatch hpc), hi.remembered, (fun hpc => nomatch hpc)⟩
  | cycle before after _ _ _ listener _ lastPoll =>
    refine ⟨hrec, fun hpc => ?_, ?_, fun hpc => ?_⟩
    · rw [after] at hpc
      cases hpc
    · rw [listener, lastPoll]
      exact hi.remembered
    · rw [after] at hpc
      cases hpc
  | endCycle before _ after =>
    subst after
    refine ⟨hrec, (fun hpc => nomatch hpc), (fun p hl => nomatch hl), fun _ => ?_⟩
    exact hp (by rw [before]; rfl)
  | wake before after _ _ listener noted =>
    refine ⟨hrec, fun hpc => ?_, ?_, fun hpc => ?_⟩
    · rw [after] at hpc
      cases hpc
    · rw [listener, noted]
      exact hi.remembered
    · rw [after] at hpc
      cases hpc
  | stop before after =>
    subst after
    exact ⟨hrec, (fun hpc => nomatch hpc), hi.remembered, (fun hpc => nomatch hpc)⟩

/-- The steps of a poller: it stays quiet and remembers the same prefix, it finds another prefix, or it sends. -/
theorem pollerStep_cases {l : ListenerEvent} (h : listenerStep ⟨.dns domain, hosts⟩ s l = some t) :
    ∃ ls, s.listener = some ls ∧
      ((∃ q, ls.pc ≠ .sending ∧ q ≠ .sending ∧ t.listener = some ⟨q, ls.last⟩ ∧ t.chan = s.chan ∧
          (t.noted.lastPoll = s.noted.lastPoll ∨ t.noted.lastPoll = none ∨ t.noted.lastPoll = ls.last)) ∨
        (∃ p, t.listener = some ⟨.sending, some p⟩ ∧ t.noted.lastPoll = none) ∨
        t.listener = some ⟨.idle, ls.last⟩ ∧ t.chan = s.chan.send ∧
          (t.noted.lastPoll = none ∨ t.noted.lastPoll = ls.last)) := by
  unfold listenerStep at h
  split at h
  · cases h
  · rename_i ls hls
    refine ⟨ls, hls, ?_⟩
    split at h <;> rename_i hm hpc
    · -- a poll begins
      cases h
      exact Or.inl ⟨.polling, by rw [hpc]; simp, by simp, rfl, rfl, Or.inl rfl⟩
    · -- a poll ends
      split at h
      · rename_i new _
        split at h
        · cases h
          exact Or.inr (Or.inl ⟨new, rfl, rfl⟩)
        · rename_i hsame
          cases h
          refine Or.inl ⟨.idle, by rw [hpc]; simp, by simp, rfl, rfl, Or.inr ?_⟩
          cases s.noted.pollFresh
          · exact Or.inl rfl
          · exact Or.inr (not_not.1 hsame).symm
      · cases h
        exact Or.inl ⟨.idle, by rw [hpc]; simp, by simp, rfl, rfl, Or.inr (Or.inl rfl)⟩
    · cases hm
    · cases hm
    · cases h
      refine Or.inr (Or.inr ⟨rfl, rfl, ?_⟩)
      cases s.noted.pollFresh
      · exact Or.inl rfl
      · exact Or.inr rfl
    · cases h

/-- The poller. -/
theorem pollInv_listener {l : ListenerEvent} (hi : PollInv ⟨.dns domain, hosts⟩ s) (hlive : s.pc ≠ .killed)
    (h : listenerStep ⟨.dns domain, hosts⟩ s l = some t) (hrec : ReceiverInv t) :
    PollInv ⟨.dns domain, hosts⟩ t := by
  obtain ⟨hpc, hrx, hcache, _⟩ := listenerStep_frame h
  obtain ⟨ls, hls, hcases⟩ := pollerStep_cases h
  have hspawned : t.pc ≠ .start := by
    intro hstart
    rw [hi.unspawned (hpc ▸ hstart)] at hls
    cases hls
  refine ⟨hrec, fun hstart => absurd hstart hspawned, ?_, ?_⟩
  · intro p hp
    rcases hcases with ⟨q, _, hq, hl, _, hsame | hnone | hlast⟩ | ⟨_, _, hnone⟩ | ⟨hl, _, hnone | hlast⟩
    · obtain ⟨l, hl', hlast, _⟩ := hi.remembered p (hsame.symm.trans hp)
      rw [hls] at hl'
      cases hl'
      exact ⟨_, hl, hlast, hq⟩
    · rw [hnone] at hp
      cases hp
    · exact ⟨_, hl, hlast.symm.trans hp, hq⟩
    · rw [hnone] at hp
      cases hp
    · rw [hnone] at hp
      cases hp
    · exact ⟨_, hl, hlast.symm.trans hp, by simp⟩
  · intro hparked
    rw [hpc] at hparked
    rcases hcases with ⟨q, hquiet, _, hl, hchan, _⟩ | ⟨p, hl, _⟩ | ⟨_, hchan, _⟩
    · rcases hi.settled hparked with (hu | hs) | hset
      · exact Or.inl (Or.inl ((unseen_congr hrx hchan).2 hu))
      · rw [TaskState.Sending, hls] at hs
        exact absurd (Option.some.inj hs) hquiet
      · refine Or.inr fun l hl' p hp => ?_
        rw [hl] at hl'
        cases hl'
        intro e he
        rw [hcache]
        exact hset ls hls p hp e he
    · exact Or.inl (Or.inr (by rw [TaskState.Sending, hl]; rfl))
    · have hne := hi.subscribed (by rw [hparked]; rfl) hlive
      exact Or.inl (Or.inl (unseen_of_send hi.toReceiverInv hne hrx hchan))

/-- **Every step that meets the condition keeps it.** -/
theorem pollInv_step (hi : PollInv ⟨.dns domain, hosts⟩ s) (hp : ParksSettled ⟨.dns domain, hosts⟩ s e)
    (h : taskStep ⟨.dns domain, hosts⟩ s e = some t) : PollInv ⟨.dns domain, hosts⟩ t := by
  have hrec := receiverInv_step hi.toReceiverInv h
  obtain ⟨hlive, ⟨m, rfl, hm⟩ | ⟨l, rfl, hl⟩ | ⟨g, rfl, hg⟩⟩ := taskStep_cases h
  · exact pollInv_main hi hlive hp hm
  · exact pollInv_listener hi hlive hl hrec
  · obtain ⟨hcache, hchan, hrx, hl, hnoted, hpc | hpc⟩ := signalStep_frame hg
    · refine ⟨hrec, by rw [hpc, hl]; exact hi.unspawned, by rw [hnoted, hl]; exact hi.remembered, fun hparked => ?_⟩
      rw [Outstanding, unseen_congr hrx hchan, sending_congr hl, settled_congr hl hcache]
      exact hi.settled (hpc ▸ hparked)
    · refine ⟨hrec, fun hstart => ?_, by rw [hnoted, hl]; exact hi.remembered, fun hparked => ?_⟩
      · rw [hpc] at hstart
        cases hstart
      · rw [hpc] at hparked
        cases hparked

/-- Where the invariant holds, nothing is given up. -/
theorem PollInv.not_givenUp (hi : PollInv cfg s) : ¬GivenUp cfg s := by
  rintro ⟨hparked, hseen, p, hlast, hstale⟩
  obtain ⟨l, hl, hpl, hquiet⟩ := hi.remembered p hlast
  rcases hi.settled hparked with (hu | hs) | hset
  · exact hseen hu
  · rw [TaskState.Sending, hl] at hs
    exact hquiet (Option.some.inj hs)
  · exact hstale (hset l hl p hpl)

/-- **No update is given up** in a run with the DNS method, from process start and in any interleaving, in which the
main task goes to `select!` only with a change outstanding or with the poller's prefix settled. -/
theorem no_update_given_up (domain : String) (hosts : List (Ipv6Addr × String))
    (hr : run (taskStep ⟨.dns domain, hosts⟩) .init es = some t)
    (hp : Along (taskStep ⟨.dns domain, hosts⟩) (ParksSettled ⟨.dns domain, hosts⟩) .init es) :
    ¬GivenUp ⟨.dns domain, hosts⟩ t :=
  (run_inv_along (fun _ _ _ hi hp h => pollInv_step hi hp h) pollInv_init hp hr).not_givenUp

/-- The condition is needed: where the main task is parked with nothing outstanding and a host is not at the poller's
prefix, one more poll with this prefix gives the host up. -/
theorem given_up_of_unsettled {lookup : Except String (List IpAddr)} (hparked : s.pc = .parked) (hout : ¬Outstanding s)
    (hl : s.listener = some ⟨.idle, some p⟩) (hlookup : Dns.resolvePrefixInner lookup domain = .ok p)
    (hstale : ¬Synced ⟨.dns domain, hosts⟩ s p) : ∃ t,
      run (taskStep ⟨.dns domain, hosts⟩) s [.listener .pollBegin, .listener (.pollEnd lookup)] = some t ∧
        GivenUp ⟨.dns domain, hosts⟩ t := by
  have hlive : ¬(s.pc = .stopped ∨ s.pc = .killed) := by simp [hparked]
  refine ⟨{ s with noted := { s.noted with pollFresh := true, lastPoll := some p } }, ?_, hparked,
    fun hu => hout (Or.inl hu), p, rfl, hstale⟩
  simp only [run, taskStep, if_neg hlive, listenerStep, hl, Option.bind_some, hlookup]
  simp [hparked]

/-! ## A rotation of the prefix -/

/-- One host, and a reference domain whose record is at prefix `2001:db8:0:n::`. -/
def dnsSetup : Setup := ⟨.dns "router.example.com", [(⟨0, 0, 0, 0, 0, 0, 0, 1⟩, "nas.example.com")]⟩

def lookupAt (n : UInt16) : Except String (List IpAddr) := .ok [.v6 ⟨0x2001, 0xdb8, 0, n, 0, 0, 0, 7⟩]

/-- Process start until the main task is parked, at prefix 1. -/
def dnsStartup : List TaskEvent :=
  [.main .spawnListener, .main .newReturns, .main (.seedHosts none), .main (.seedRecord (.ok none)),
    .main .startupCycle, .main .callDetect, .main (.detectReturns ⟨lookupAt 1, .error ""⟩), .main (.discovered none),
    .main (.host (.ok ())), .main .endCycle, .main .spawnSignalTasks, .main .subscribe]

/-- A poll that finds prefix `n`. -/
def pollEvents (n : UInt16) : List TaskEvent := [.listener .pollBegin, .listener (.pollEnd (lookupAt n))]

/-- A cycle that detects prefix `n` and updates the host. -/
def cycleAt (n : UInt16) : List TaskEvent :=
  [.main .changed, .main .callDetect, .main (.detectReturns ⟨lookupAt n, .error ""⟩), .main (.discovered none),
    .main (.host (.ok ())), .main .endCycle]

/-- A cycle whose lookup fails. -/
def cycleFailing : List TaskEvent :=
  [.main .changed, .main .callDetect, .main (.detectReturns ⟨.error "no connections available", .error ""⟩),
    .main .endCycle]

/-- The first poll and its cycle. -/
def firstPoll : List TaskEvent := dnsStartup ++ pollEvents 1 ++ [.listener .send] ++ cycleAt 1

/-- A rotation whose cycle succeeds: the next poll finds nothing to do, rightly. -/
theorem no_update_given_up_rotation : ∃ t,
    run (taskStep dnsSetup) .init (firstPoll ++ pollEvents 2 ++ [.listener .send] ++ cycleAt 2 ++ pollEvents 2) =
      some t ∧
      ¬GivenUp dnsSetup t :=
  ⟨_, rfl, no_update_given_up _ _
    (show run _ _ (firstPoll ++ pollEvents 2 ++ [.listener .send] ++ cycleAt 2 ++ pollEvents 2) = _ from rfl)
    (by decide)⟩

/-- A rotation whose cycle fails to detect: the next poll finds the prefix it knows, and the host stays at prefix 1. -/
theorem update_given_up : ∃ t,
    run (taskStep dnsSetup) .init (firstPoll ++ pollEvents 2 ++ [.listener .send] ++ cycleFailing ++ pollEvents 2) =
      some t ∧
      GivenUp dnsSetup t :=
  ⟨_, rfl, rfl, by decide, _, rfl, by decide⟩

end DdnsIpv6

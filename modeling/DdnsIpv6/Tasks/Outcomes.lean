import DdnsIpv6.Tasks.Poll
import DdnsIpv6.Tasks.Served

/-!
# The DNS poller and what the cycles come to

`ParksSettled` is a condition on the cache. It is met where the cycle that ends has detected the prefix that the poller
remembers and none of its calls has failed, as long as no container claims the domain of a static host: then no update
is given up (`no_update_given_up_of_done`).
-/

namespace DdnsIpv6

open Lib Lib.WriteThrough Prefix

/-- What an observer notes of the last cycle: the prefix that it has detected, and whether a call has failed. -/
structure CycleOutcome where
  detected : Option Ipv6Addr
  failed : Bool
  deriving DecidableEq, Repr

variable {cfg : Setup} {s t : TaskState} {e : TaskEvent} {n : CycleOutcome}

/-- Before the first cycle. -/
def CycleOutcome.none : CycleOutcome := ⟨Option.none, false⟩

/-- The notes on a step. -/
def CycleOutcome.note (cfg : Setup) (s : TaskState) (e : TaskEvent) (_ : TaskState) (n : CycleOutcome) : CycleOutcome :=
  match e with
  | .main .callDetect => .none
  | .main (.detectReturns answers) =>
    { n with detected := (detect cfg.method (s.listener.bind Listener.last) answers).toOption }
  | .main (.host (.error _)) => { n with failed := n.failed || s.nextCall.isSome }
  | _ => n

/-- The cycle has detected the prefix that the poller remembers, if any, and none of its calls has failed. -/
def CycleOutcome.Done (n : CycleOutcome) (s : TaskState) : Prop :=
  ∀ l ∈ s.listener, ∀ p ∈ l.last, n.detected = some p ∧ n.failed = false

instance (n : CycleOutcome) (s : TaskState) : Decidable (n.Done s) := inferInstanceAs (Decidable (∀ _ ∈ _, ∀ _ ∈ _, _))

/-- If the step takes the main task to `select!`, a change is outstanding or the last cycle is done with the prefix of
the poller. -/
def ParksDone (w : TaskState × CycleOutcome) : TaskEvent → Prop
  | .main .subscribe => Outstanding w.1 ∨ w.2.Done w.1
  | .main .endCycle => w.1.pc.inLoop = true → Outstanding w.1 ∨ w.2.Done w.1
  | _ => True

instance (w : TaskState × CycleOutcome) : (e : TaskEvent) → Decidable (ParksDone w e)
  | .main .subscribe => inferInstanceAs (Decidable (_ ∨ _))
  | .main .endCycle => inferInstanceAs (Decidable (_ → _))
  | .main .spawnListener | .main .newReturns | .main (.seedHosts _) | .main (.seedRecord _) | .main .startupCycle
  | .main .callDetect | .main (.detectReturns _) | .main (.discovered _) | .main (.host _) | .main .spawnSignalTasks
  | .main .changed | .main .notified | .main .cancelled => isTrue trivial
  | .listener _ | .signal _ => isTrue trivial

/-- The hosts that are discovered have other domains than the static ones. -/
def LeavesStatic (hosts : List (Ipv6Addr × String)) : TaskEvent → Prop
  | .main (.discovered found) => ∀ h ∈ found.getD [], h.domain ∉ hosts.map Prod.snd
  | _ => True

/-! ## What the notes say of the cache -/

def MainPc.beforeCycles : MainPc → Bool
  | .start | .building | .built | .seeding _ => true
  | _ => false

/-- The main task has still to come to the host, or is killed. -/
def MainPc.Ahead (e : Ipv6Addr × String) : MainPc → Prop
  | .cycle _ (.discovering _) => True
  | .cycle _ (.updating _ todo) => e ∈ todo
  | .killed => True
  | _ => False

/-- As long as no call fails, every static host is at the prefix of the cycle, or the cycle has still to come to it. -/
structure OutcomeInv (cfg : Setup) (s : TaskState) (n : CycleOutcome) : Prop where
  early : s.pc.beforeCycles = true → n.detected = Option.none
  discovering : ∀ startup p, s.pc = .cycle startup (.discovering p) → n.detected = some p
  updating : ∀ startup p todo, s.pc = .cycle startup (.updating p todo) → n.detected = some p ∧
    ∀ e ∈ todo, e ∈ cfg.staticSuffixes ∨ e.2 ∉ cfg.staticSuffixes.map Prod.snd
  reached : n.failed = false → ∀ p, n.detected = some p → ∀ e ∈ cfg.staticSuffixes,
    s.pc.Ahead e ∨ s.cache e.2 = some (combine p e.1)

theorem outcomeInv_init : OutcomeInv cfg .init .none :=
  ⟨fun _ => rfl, (fun _ _ h => by cases h), (fun _ _ _ h => by cases h), fun _ _ h => by cases h⟩

/-- The invariant is about the place and the cache. -/
theorem OutcomeInv.congr (hi : OutcomeInv cfg s n) (hpc : t.pc = s.pc) (hcache : t.cache = s.cache) :
    OutcomeInv cfg t n := by
  obtain ⟨hearly, hdiscovering, hupdating, hreached⟩ := hi
  rw [← hpc] at hearly hdiscovering hupdating hreached
  rw [← hcache] at hreached
  exact ⟨hearly, hdiscovering, hupdating, hreached⟩

/-- A process that is killed comes to no host. -/
theorem outcomeInv_killed (hpc : t.pc = .killed) : OutcomeInv cfg t n where
  early h := by
    rw [hpc] at h
    cases h
  discovering startup p h := by cases hpc.symm.trans h
  updating startup p todo h := by cases hpc.symm.trans h
  reached _ p _ e _ := by
    rw [hpc]
    exact Or.inl trivial

/-- Before the first cycle there is nothing to say. -/
theorem OutcomeInv.before (hi : OutcomeInv cfg s n) (hs : s.pc.beforeCycles = true)
    (hc : ∀ startup c, t.pc = .cycle startup c → c = .called) : OutcomeInv cfg t n where
  early _ := hi.early hs
  discovering startup p h := by cases hc _ _ h
  updating startup p todo h := by cases hc _ _ h
  reached _ p hp := by cases (hi.early hs).symm.trans hp

/-- A step from outside a cycle, or from its end, that leaves the cache alone. -/
theorem OutcomeInv.outside (hi : OutcomeInv cfg s n) (hs : ∀ e, ¬s.pc.Ahead e) (hbefore : t.pc.beforeCycles = false)
    (hc : ∀ startup c, t.pc = .cycle startup c → c = .called) (hcache : t.cache = s.cache) : OutcomeInv cfg t n where
  early h := by
    rw [hbefore] at h
    cases h
  discovering startup p h := by cases hc _ _ h
  updating startup p todo h := by cases hc _ _ h
  reached hf p hp e he := by
    rw [hcache]
    exact Or.inr ((hi.reached hf p hp e he).resolve_left (hs e))

/-- A host whose call does not fail has its address afterwards, and so have those that had it before. -/
theorem updateHost_reached {cache : Cache String Ipv6Addr} {outcome : Except Error Unit} {p suffix : Ipv6Addr}
    {domain : String} {e : Ipv6Addr × String} {todo : List (Ipv6Addr × String)} (hhost : e.2 = domain → e.1 = suffix)
    (hok : cache domain ≠ some (combine p suffix) → outcome = .ok ())
    (h : e ∈ (suffix, domain) :: todo ∨ cache e.2 = some (combine p e.1)) :
    e ∈ todo ∨ (updateHost (answering outcome (.ok Option.none)) (combine p suffix) domain
      ⟨cache, ()⟩).2.cache e.2 = some (combine p e.1) := by
  by_cases hskip : cache domain = some (combine p suffix)
  · rw [updateHost, if_pos hskip]
    rcases h with hmem | hdone
    · rcases List.mem_cons.1 hmem with rfl | hmem
      · exact Or.inr hskip
      · exact Or.inl hmem
    · exact Or.inr hdone
  · have hwritten : (updateHost (answering outcome (.ok Option.none)) (combine p suffix) domain ⟨cache, ()⟩).2.cache =
        Function.update cache domain (some (combine p suffix)) := by
      rw [hok hskip, updateHost, if_neg hskip]
      rfl
    rw [hwritten]
    by_cases hd : e.2 = domain
    · rw [hd, Function.update_self, hhost hd]
      exact Or.inr rfl
    · rw [Function.update_of_ne hd]
      refine h.imp_left fun hmem => (List.mem_cons.1 hmem).resolve_left ?_
      rintro rfl
      exact hd rfl

/-- A host of a cycle. -/
theorem outcomeInv_host (hi : OutcomeInv cfg s n) (hnd : (cfg.staticSuffixes.map Prod.snd).Nodup)
    {outcome : Except Error Unit} {startup : Bool} {p suffix : Ipv6Addr} {domain : String}
    {todo : List (Ipv6Addr × String)} (hpc : s.pc = .cycle startup (.updating p ((suffix, domain) :: todo)))
    (htpc : t.pc = .cycle startup (.updating p todo))
    (hcache : t.cache =
      (updateHost (answering outcome (.ok Option.none)) (combine p suffix) domain ⟨s.cache, ()⟩).2.cache) :
    OutcomeInv cfg t (n.note cfg s (.main (.host outcome)) t) := by
  obtain ⟨hdetected, hhosts⟩ := hi.updating startup p _ hpc
  have hsame : (n.note cfg s (.main (.host outcome)) t).detected = n.detected := by
    cases outcome <;> rfl
  refine ⟨fun h => ?_, fun _ _ h => ?_, fun startup' q todo' h => ?_, fun hf q hq e he => ?_⟩
  · rw [htpc] at h
    cases h
  · rw [htpc] at h
    cases h
  · rw [htpc] at h
    cases h
    rw [hsame]
    exact ⟨hdetected, fun e he => hhosts e (List.mem_cons_of_mem _ he)⟩
  · rw [hsame, hdetected] at hq
    cases hq
    -- no call has failed before, and this one has not, if it was one
    have hok : n.failed = false ∧ (s.cache domain ≠ some (combine p suffix) → outcome = .ok ()) := by
      cases outcome with
      | ok _ => exact ⟨hf, fun _ => rfl⟩
      | error _ =>
        have hfailed : (n.failed || s.nextCall.isSome) = false := hf
        obtain ⟨hbefore, hquiet⟩ := Bool.or_eq_false_iff.1 hfailed
        refine ⟨hbefore, fun hcall => ?_⟩
        simp only [TaskState.nextCall, hpc, if_neg hcall, Option.isSome_some] at hquiet
        cases hquiet
    have hreached := hi.reached hok.1 p hdetected e he
    rw [hpc] at hreached
    rw [htpc, hcache]
    -- another host of this domain would be this one
    refine updateHost_reached (fun hd => ?_) hok.2 hreached
    rcases hhosts (suffix, domain) List.mem_cons_self with hs | hs
    · exact congrArg Prod.fst (List.inj_on_of_nodup_map hnd he hs hd)
    · exact absurd (List.mem_map.2 ⟨e, he, hd⟩) hs

/-- The main task. -/
theorem outcomeInv_main {m : MainEvent} (hi : OutcomeInv cfg s n) (hnd : (cfg.staticSuffixes.map Prod.snd).Nodup)
    (hleaves : LeavesStatic cfg.staticSuffixes (.main m)) (h : mainStep cfg s m = some t) :
    OutcomeInv cfg t (n.note cfg s (.main m) t) := by
  cases mainStep_cases h with
  | spawnListener hpc | newReturns hpc | seedHosts _ hpc | seedRecord _ _ _ hpc | startupCycle hpc =>
    exact hi.before (by rw [hpc]; rfl) (by rintro _ _ ⟨⟩ <;> rfl)
  | callDetect startup hpc =>
    exact ⟨(fun h => by cases h), (fun _ _ h => by cases h), (fun _ _ _ h => by cases h), fun _ _ h => by cases h⟩
  | detectReturns answers startup c hpc ok error =>
    cases hd : detect cfg.method (s.listener.bind Listener.last) answers with
    | ok p =>
      obtain rfl := ok p hd
      have hnote : (n.note cfg s (.main (.detectReturns answers)) s).detected = some p := by
        simp only [CycleOutcome.note, hd, Except.toOption]
      refine ⟨(fun h => by cases h), fun _ q h => ?_, (fun _ _ _ h => by cases h), fun _ _ _ _ _ => Or.inl trivial⟩
      cases h
      exact hnote
    | error e =>
      obtain rfl := error e hd
      refine ⟨(fun h => by cases h), (fun _ _ h => by cases h), (fun _ _ _ h => by cases h), fun _ p hp => ?_⟩
      simp only [CycleOutcome.note, hd, Except.toOption] at hp
      cases hp
  | discovered hosts startup p hpc =>
    refine ⟨(fun h => by cases h), (fun _ _ h => by cases h), fun startup' q todo h => ?_, fun _ q _ e he => Or.inl ?_⟩
    · cases h
      refine ⟨hi.discovering startup p hpc, fun e he => ?_⟩
      rw [collectSuffixes_snd] at he
      rcases List.mem_append.1 he with he | he
      · exact Or.inl he
      · obtain ⟨host, hhost, rfl⟩ := List.mem_map.1 he
        exact Or.inr (hleaves host hhost)
    · simp only [MainPc.Ahead, collectSuffixes_snd]
      exact List.mem_append_left _ he
  | host outcome startup p suffix domain todo hpc => exact outcomeInv_host hi hnd hpc rfl rfl
  | endCycle startup c hpc hc =>
    refine hi.outside (fun e => ?_) (by cases startup <;> rfl) ?_ rfl
    · rw [hpc]
      rcases hc with rfl | ⟨p, rfl⟩
      · exact id
      · exact List.not_mem_nil
    · cases startup <;> rintro _ _ ⟨⟩
  | spawnSignalTasks hpc | subscribe hpc | changed _ _ hpc _ _ | notified hpc _ | cancelled hpc _ =>
    exact hi.outside (fun e => by rw [hpc]; exact id) rfl (by rintro _ _ ⟨⟩ <;> rfl) rfl

/-- **Every step.** -/
theorem outcomeInv_step (hi : OutcomeInv cfg s n) (hnd : (cfg.staticSuffixes.map Prod.snd).Nodup)
    (hleaves : LeavesStatic cfg.staticSuffixes e) (h : taskStep cfg s e = some t) :
    OutcomeInv cfg t (n.note cfg s e t) := by
  obtain ⟨-, ⟨m, rfl, hm⟩ | ⟨l, rfl, hl⟩ | ⟨g, rfl, hg⟩⟩ := taskStep_cases h
  · exact outcomeInv_main hi hnd hleaves hm
  · obtain ⟨hpc, -, hcache, -⟩ := listenerStep_frame hl
    exact hi.congr hpc hcache
  · obtain ⟨hcache, -, -, -, -, hpc | hpc⟩ := signalStep_frame hg
    · exact hi.congr hpc hcache
    · exact outcomeInv_killed hpc

/-! ## The condition on the cache -/

/-- Where no host is ahead, the prefix of a cycle that is done is settled. -/
theorem settled_of_done (hi : OutcomeInv cfg s n) (hs : ∀ e, ¬s.pc.Ahead e) (hd : n.Done s) : Settled cfg s := by
  intro l hl p hp e he
  obtain ⟨hdetected, hfailed⟩ := hd l hl p hp
  exact (hi.reached hfailed p hdetected e he).resolve_left (hs e)

theorem parksSettled_of_done (hi : OutcomeInv cfg s n) (hp : ParksDone (s, n) e) (h : taskStep cfg s e = some t) :
    ParksSettled cfg s e := by
  obtain ⟨-, ⟨m, rfl, hm⟩ | ⟨l, rfl, -⟩ | ⟨g, rfl, -⟩⟩ := taskStep_cases h
  · cases mainStep_cases hm with
    | subscribe hpc =>
      exact hp.imp_right fun hd => settled_of_done hi (fun e => by rw [hpc]; exact id) hd
    | endCycle startup c hpc hc =>
      refine fun hloop => (hp hloop).imp_right fun hd => settled_of_done hi (fun e => ?_) hd
      rw [hpc]
      rcases hc with rfl | ⟨p, rfl⟩
      · exact id
      · exact List.not_mem_nil
    | _ => trivial
  · trivial
  · trivial

/-- **No update is given up** in a run with the DNS method, from process start and in any interleaving, in which
containers leave the static hosts alone, and the main task goes to `select!` only with a change outstanding or after a
cycle that has detected the prefix of the poller and in which no call has failed. -/
theorem no_update_given_up_of_done (domain : String) {hosts : List (Ipv6Addr × String)}
    (hnd : (hosts.map Prod.snd).Nodup) {es : List TaskEvent} (hleaves : ∀ e ∈ es, LeavesStatic hosts e)
    (hr : run (observed (taskStep ⟨.dns domain, hosts⟩) (CycleOutcome.note ⟨.dns domain, hosts⟩)) (.init, .none) es =
      some (t, n))
    (hp : Along (observed (taskStep ⟨.dns domain, hosts⟩) (CycleOutcome.note ⟨.dns domain, hosts⟩)) ParksDone
      (.init, .none) es) : ¬GivenUp ⟨.dns domain, hosts⟩ t := by
  have hsettled := along_of_inv (I := fun w => OutcomeInv ⟨.dns domain, hosts⟩ w.1 w.2)
    (Q := fun w e => ParksSettled ⟨.dns domain, hosts⟩ w.1 e) (fun w e w' hi hp h => ?_) outcomeInv_init
    (hp.and (along_of_forall hleaves)) hr
  · exact (run_inv_along (fun _ _ _ hi hp h => pollInv_step hi hp h) pollInv_init (along_of_observed hsettled)
      (run_of_observed hr)).not_givenUp
  · obtain ⟨u, hu, rfl⟩ := observed_eq_some.1 h
    exact ⟨outcomeInv_step hi hnd hp.2 hu, parksSettled_of_done hi hp.1 hu⟩

/-- A rotation of the prefix whose cycle succeeds, by the outcomes of its cycles. -/
example : Along (observed (taskStep dnsSetup) (CycleOutcome.note dnsSetup)) ParksDone (.init, .none)
    (firstPoll ++ pollEvents 2 ++ [.listener .send] ++ cycleAt 2 ++ pollEvents 2) := by decide

end DdnsIpv6

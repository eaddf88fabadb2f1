import DdnsIpv6.Tasks.Listener
import DdnsIpv6.Lib.Observer

/-!
# The process with its updater

A step of the process comes with the outcomes of its remote calls. Here an updater in some world gives them: the process
takes the steps whose outcomes are those of the updater (`servedStep`), each of which does to the cache and the world
what the sequential code does (`ServedCase`).
-/

namespace DdnsIpv6

open Lib Lib.WriteThrough

variable {σ : Type}

/-- The tasks, and the world of the updater. -/
structure Served (σ : Type) where
  task : TaskState
  world : σ

/-- The cache of the main task and the world. -/
def Served.daemon (s : Served σ) : Daemon σ := ⟨s.task.cache, s.world⟩

/-- The query for the next host at startup. -/
def TaskState.nextQuery (s : TaskState) : Option String :=
  match s.pc with
  | .seeding ((_, domain) :: _) => some domain
  | _ => none

/-- The call of `set_record` for the next host, unless the host is skipped. -/
def TaskState.nextCall (s : TaskState) : Option (String × Ipv6Addr) :=
  match s.pc with
  | .cycle _ (.updating p ((suffix, domain) :: _)) =>
    if s.cache domain = some (combine p suffix) then none else some (domain, combine p suffix)
  | _ => none

/-- What a step does to the world, if its outcome is that of the updater. -/
def serve (u : DnsUpdater σ) (s : Served σ) (e : TaskEvent) : Option σ :=
  match e, s.task.pc with
  | .main (.seedRecord answer), .seeding ((_, domain) :: _) =>
    if (u.getRecord domain s.world).1 = answer then some (u.getRecord domain s.world).2 else none
  | .main (.host outcome), _ =>
    match s.task.nextCall with
    | none => some s.world
    | some (domain, addr) =>
      if (u.setRecord domain addr s.world).1 = outcome then some (u.setRecord domain addr s.world).2 else none
  | _, _ => some s.world

/-- One step of the process with its updater. -/
def servedStep (cfg : Setup) (u : DnsUpdater σ) (s : Served σ) (e : TaskEvent) : Option (Served σ) :=
  (taskStep cfg s.task e).bind fun t => (serve u s e).map fun w => ⟨t, w⟩

/-- Process start. -/
def Served.init (w : σ) : Served σ := ⟨.init, w⟩

variable {cfg : Setup} {u : DnsUpdater σ} {s t : Served σ} {e : TaskEvent}

/-- A step of the process with its updater is one of the process. -/
theorem taskStep_of_servedStep (h : servedStep cfg u s e = some t) :
    taskStep cfg s.task e = some t.task ∧ serve u s e = some t.world := by
  obtain ⟨task, htask, hw⟩ := Option.bind_eq_some_iff.1 h
  obtain ⟨w, hserve, rfl⟩ := Option.map_eq_some_iff.1 hw
  exact ⟨htask, hserve⟩

/-- The steps of the process with its updater, by what they do to the cache and the world. -/
inductive ServedCase (cfg : Setup) (u : DnsUpdater σ) (s t : Served σ) : TaskEvent → Prop
  /-- A query at startup. -/
  | seedRecord (answer : Except Error (Option Ipv6Addr)) (e : Ipv6Addr × String) (todo : List (Ipv6Addr × String))
      (before : s.task.pc = .seeding (e :: todo)) (after : t.task.pc = .seeding todo)
      (daemon : t.daemon = seedCache u [e] s.daemon) : ServedCase cfg u s t (.main (.seedRecord answer))
  /-- A host that is skipped, or whose record is set. -/
  | host (outcome : Except Error Unit) (startup : Bool) (p suffix : Ipv6Addr) (domain : String)
      (todo : List (Ipv6Addr × String)) (before : s.task.pc = .cycle startup (.updating p ((suffix, domain) :: todo)))
      (after : t.task.pc = .cycle startup (.updating p todo))
      (report : (s.task.nextCall = none ∧ (put u.setRecord domain (combine p suffix) s.daemon).1 = .skipped) ∨
        (s.task.nextCall = some (domain, combine p suffix) ∧
          (put u.setRecord domain (combine p suffix) s.daemon).1.isCall = true))
      (daemon : t.daemon = (put u.setRecord domain (combine p suffix) s.daemon).2) :
      ServedCase cfg u s t (.main (.host outcome))
  /-- All other steps. -/
  | other (e : TaskEvent) (seedRecord : ∀ answer, e ≠ .main (.seedRecord answer))
      (host : ∀ outcome, e ≠ .main (.host outcome)) (daemon : t.daemon = s.daemon) : ServedCase cfg u s t e

/-- One answer, as the updater gives it. -/
theorem seedCache_answering (u : DnsUpdater σ) (e : Ipv6Addr × String) (d : Daemon σ) :
    seedCache u [e] d =
      ⟨(seedCache (answering (.ok ()) (u.getRecord e.2 d.store).1) [e] ⟨d.cache, ()⟩).cache,
        (u.getRecord e.2 d.store).2⟩ := by
  obtain ⟨suffix, domain⟩ := e
  simp only [seedCache, answering]
  rcases u.getRecord domain d.store with ⟨_ | _ | addr, w⟩ <;> rfl

/-- One outcome, as the updater gives it. -/
theorem put_answering (u : DnsUpdater σ) {domain : String} {addr : Ipv6Addr} {d : Daemon σ}
    (h : d.cache domain ≠ some addr) : (put u.setRecord domain addr d).2 =
      ⟨(updateHost (answering (u.setRecord domain addr d.store).1 (.ok none)) addr domain ⟨d.cache, ()⟩).2.cache,
        (u.setRecord domain addr d.store).2⟩ := by
  rw [updateHost_eq_put, put, put, if_neg h, if_neg h]
  simp only [answering]
  rcases u.setRecord domain addr d.store with ⟨_ | _, w⟩ <;> rfl

/-- **The process with its updater takes no other steps.** -/
theorem servedStep_cases (h : servedStep cfg u s e = some t) : ServedCase cfg u s t e := by
  obtain ⟨htask, hserve⟩ := taskStep_of_servedStep h
  obtain ⟨-, ⟨m, rfl, hm⟩ | ⟨l, rfl, hl⟩ | ⟨g, rfl, hg⟩⟩ := taskStep_cases htask
  · have hdaemon : t.task.cache = s.task.cache → serve u s (.main m) = some s.world → t.daemon = s.daemon := by
      intro hcache hworld
      rw [Served.daemon, hcache, Option.some.inj (hserve.symm.trans hworld)]
      rfl
    obtain ⟨task, world⟩ := t
    simp only at hm hserve
    cases mainStep_cases hm with
    | seedRecord answer e todo hpc =>
      obtain ⟨suffix, domain⟩ := e
      simp only [serve, hpc] at hserve
      split at hserve
      · rename_i hanswer
        cases hserve
        refine .seedRecord answer (suffix, domain) todo hpc rfl ?_
        rw [← hanswer]
        exact (seedCache_answering u (suffix, domain) s.daemon).symm
      · cases hserve
    | host outcome startup p suffix domain todo hpc =>
      by_cases hc : s.task.cache domain = some (combine p suffix)
      · have hnext : s.task.nextCall = none := by simp only [TaskState.nextCall, hpc, if_pos hc]
        have hput : put u.setRecord domain (combine p suffix) s.daemon = (.skipped, s.daemon) := put_of_agrees hc
        simp only [serve, hnext] at hserve
        cases hserve
        refine .host outcome startup p suffix domain todo hpc rfl (Or.inl ⟨hnext, by rw [hput]⟩) ?_
        rw [hput, Served.daemon, updateHost, if_pos hc]
        rfl
      · have hnext : s.task.nextCall = some (domain, combine p suffix) := by
          simp only [TaskState.nextCall, hpc, if_neg hc]
        simp only [serve, hnext] at hserve
        split at hserve
        · rename_i houtcome
          cases hserve
          refine .host outcome startup p suffix domain todo hpc rfl (Or.inr ⟨hnext, put_isCall.2 hc⟩) ?_
          rw [← houtcome]
          exact (put_answering u (d := s.daemon) hc).symm
        · cases hserve
    | spawnListener hpc | newReturns hpc | seedHosts discovered hpc | startupCycle hpc | callDetect startup hpc
    | detectReturns answers startup c hpc ok error | discovered hosts startup p hpc | endCycle startup c hpc hc
    | spawnSignalTasks hpc | subscribe hpc | changed r r' hpc hr hc | notified hpc hp | cancelled hpc hc =>
      exact .other _ (fun _ he => by cases he) (fun _ he => by cases he) (hdaemon rfl rfl)
  · obtain ⟨-, -, hcache, -⟩ := listenerStep_frame hl
    refine .other _ (fun _ he => by cases he) (fun _ he => by cases he) ?_
    rw [Served.daemon, hcache, ← Option.some.inj hserve]
    rfl
  · obtain ⟨hcache, -⟩ := signalStep_frame hg
    refine .other _ (fun _ he => by cases he) (fun _ he => by cases he) ?_
    rw [Served.daemon, hcache, ← Option.some.inj hserve]
    rfl

end DdnsIpv6

import DdnsIpv6.Lib.Restart
import DdnsIpv6.Tasks.Tally
import DdnsIpv6.Tasks.Wire
import DdnsIpv6.Updater.Remote

/-!
# What restarts cost

The process is started again and again, with other configurations if need be, and ends at any time. The server stays,
and nobody else writes it, but messages may be lost in any way. Over all these lives a domain costs a call for each
change of its wanted address, and besides that at most one for each life that called without having read the record
(`lives_tally`): the queries at startup are what makes a restart free.
-/

namespace DdnsIpv6

open Lib Lib.WriteThrough

variable {σ : Type}

/-! ## The ledger -/

/-- What is counted for a domain over all lives. -/
structure Ledger where
  tally : Tally
  /-- The lives that called before they had read the record. -/
  blind : Nat
  /-- Those of them whose call was for the address that the record had. -/
  wasted : Nat
  /-- This life has read the record, or has called. -/
  informed : Bool
  deriving DecidableEq, Repr

/-- Before the first life, when the server has the record. -/
def Ledger.start (record : Option Ipv6Addr) : Ledger := ⟨⟨record, 0, 0, 0⟩, 0, 0, false⟩

/-- A life begins. -/
def Ledger.begin (n : Ledger) : Ledger := { n with informed := false }

/-- A call of `set_record`. -/
def Ledger.call (n : Ledger) (record : Option Ipv6Addr) (addr : Ipv6Addr) (outcome : Except Error Unit) : Ledger where
  tally := (n.tally.want addr).call outcome
  blind := if n.informed then n.blind else n.blind + 1
  wasted := if ¬n.informed ∧ record = some addr then n.wasted + 1 else n.wasted
  informed := true

/-- The notes on a step, `record` being that of the server before it. -/
def Ledger.note (u : LossyUpdater σ) (domain : String) (s : Served σ) (e : TaskEvent) (_ : Served σ) (n : Ledger) :
    Ledger :=
  match e, s.task.pc with
  | .main (.seedRecord (.ok _)), .seeding ((_, d) :: _) => if d = domain then { n with informed := true } else n
  | .main (.host outcome), .cycle _ (.updating p ((suffix, d) :: _)) =>
    if d = domain then
      match s.task.nextCall with
      | some _ => n.call (u.records s.world domain) (combine p suffix) outcome
      | none => { n with tally := n.tally.want (combine p suffix) }
    else n
  | _, _ => n

/-- What is kept, for the cache entry `c` and the record `r` of the domain: while one of them is not the wanted address
there is a call to come that is accounted for already. -/
structure Booked (c r : Option Ipv6Addr) (n : Ledger) : Prop where
  le : n.tally.acknowledged ≤ n.tally.changes + n.wasted
  record : r ≠ n.tally.wanted → n.tally.acknowledged < n.tally.changes + n.wasted
  entry : n.informed = true → c ≠ n.tally.wanted → n.tally.acknowledged < n.tally.changes + n.wasted
  blank : n.informed = false → c = none
  wasted : n.wasted ≤ n.blind
  even : n.tally.failed = 0 → r = n.tally.wanted ∧ (n.informed = true → c = n.tally.wanted) ∧
    n.tally.acknowledged = n.tally.changes + n.wasted

section Ledger

variable {c r : Option Ipv6Addr} {n : Ledger} {addr : Ipv6Addr}

theorem booked_start (r : Option Ipv6Addr) : Booked none r (.start r) where
  le := Nat.le_refl 0
  record hne := absurd rfl hne
  entry h := by cases h
  blank _ := rfl
  wasted := Nat.le_refl 0
  even _ := ⟨rfl, (fun h => by cases h), rfl⟩

/-- A life begins, with an empty cache. -/
theorem Booked.begin (hn : Booked c r n) : Booked none r n.begin where
  le := hn.le
  record := hn.record
  entry h := by cases h
  blank _ := rfl
  wasted := hn.wasted
  even hf := ⟨(hn.even hf).1, (fun h => by cases h), (hn.even hf).2.2⟩

/-- The answer is that there is no record. A cache entry can be no worse than before. -/
theorem Booked.readNone (hn : Booked c none n) : Booked c none { n with informed := true } where
  le := hn.le
  record := hn.record
  entry _ hne := by
    cases hi : n.informed with
    | true => exact hn.entry hi hne
    | false => exact hn.record (hn.blank hi ▸ hne)
  blank h := by cases h
  wasted := hn.wasted
  even hf := by
    obtain ⟨hrecord, hentry, heven⟩ := hn.even hf
    refine ⟨hrecord, fun _ => ?_, heven⟩
    cases hi : n.informed with
    | true => exact hentry hi
    | false => exact (hn.blank hi).trans hrecord

/-- The record is read. -/
theorem Booked.read (hn : Booked c r n) : Booked r r { n with informed := true } where
  le := hn.le
  record := hn.record
  entry _ := hn.record
  blank h := by cases h
  wasted := hn.wasted
  even hf := ⟨(hn.even hf).1, fun _ => (hn.even hf).1, (hn.even hf).2.2⟩

theorem changes_le_want (n : Tally) (addr : Ipv6Addr) : n.changes ≤ (n.want addr).changes := by
  simp only [Tally.want]
  split
  · exact Nat.le_refl _
  · exact Nat.le_succ _

/-- A host that is skipped. -/
theorem Booked.skip (hn : Booked (some addr) r n) : Booked (some addr) r { n with tally := n.tally.want addr } where
  le := hn.le.trans (Nat.add_le_add_right (changes_le_want n.tally addr) n.wasted)
  record hne := by
    have hle := hn.le
    have hlt := hn.record
    simp only [Tally.want] at hne ⊢
    split
    · rename_i hw
      exact hlt (hw ▸ hne)
    · omega
  entry _ hne := absurd rfl hne
  blank h := by cases hn.blank h
  wasted := hn.wasted
  even hf := by
    obtain ⟨hrecord, hentry, heven⟩ := hn.even hf
    have hinformed : n.informed = true := by
      cases hi : n.informed with
      | true => rfl
      | false => cases hn.blank hi
    have hwanted := (hentry hinformed).symm
    refine ⟨hrecord.trans hwanted, fun _ => rfl, ?_⟩
    simp only [Tally.want, if_pos hwanted]
    exact heven

/-- With a call that is made, one more may be acknowledged. -/
theorem Booked.lt_call (hn : Booked c r n) (hc : c ≠ some addr) (outcome : Except Error Unit) :
    n.tally.acknowledged < (n.tally.want addr).changes + (n.call r addr outcome).wasted := by
  have hle := hn.le
  simp only [Ledger.call, Tally.want]
  by_cases hw : n.tally.wanted = some addr
  · rw [if_pos hw]
    cases hi : n.informed with
    | true =>
      have hlt := hn.entry hi (by rw [hw]; exact hc)
      simpa using hlt
    | false =>
      by_cases hr : r = some addr
      · simp only [Bool.false_eq_true, not_false_eq_true, hr, and_self, if_true]
        omega
      · have hlt := hn.record (by rw [hw]; exact hr)
        simpa [hr] using hlt
  · rw [if_neg hw]
    split <;> omega

/-- A life wastes at most its first call. -/
theorem Booked.wasted_call (hn : Booked c r n) (addr : Ipv6Addr) (outcome : Except Error Unit) :
    (n.call r addr outcome).wasted ≤ (n.call r addr outcome).blind := by
  have hle := hn.wasted
  simp only [Ledger.call]
  cases n.informed with
  | true => simpa using hle
  | false => split <;> simp <;> omega

/-- A host whose call succeeds. -/
theorem Booked.ok (hn : Booked c r n) (hc : c ≠ some addr) :
    Booked (some addr) (some addr) (n.call r addr (.ok ())) where
  le := hn.lt_call hc (.ok ())
  record hne := absurd rfl hne
  entry _ hne := absurd rfl hne
  blank h := by cases h
  wasted := hn.wasted_call addr (.ok ())
  even hf := by
    obtain ⟨hrecord, hentry, heven⟩ := hn.even hf
    refine ⟨rfl, fun _ => rfl, ?_⟩
    simp only [Ledger.call, Tally.call, Tally.want]
    cases hi : n.informed with
    | true =>
      have hw : n.tally.wanted ≠ some addr := fun hw => hc ((hentry hi).trans hw)
      simp only [if_neg hw, not_true_eq_false, false_and, if_false]
      omega
    | false =>
      by_cases hr : r = some addr
      · have hw : n.tally.wanted = some addr := hrecord.symm.trans hr
        simp only [if_pos hw, hr, Bool.false_eq_true, not_false_eq_true, and_self, if_true]
        omega
      · have hw : n.tally.wanted ≠ some addr := fun hw => hr (hrecord.trans hw)
        simp only [if_neg hw, hr, and_false, if_false]
        omega

/-- A host whose call fails, whatever it has left of the record. -/
theorem Booked.error (hn : Booked c r n) (hc : c ≠ some addr) (e : Error) (r' : Option Ipv6Addr) :
    Booked c r' (n.call r addr (.error e)) where
  le := (hn.lt_call hc (.error e)).le
  record _ := hn.lt_call hc (.error e)
  entry _ _ := hn.lt_call hc (.error e)
  blank h := by cases h
  wasted := hn.wasted_call addr (.error e)
  even hf := by cases hf

end Ledger

/-! ## The steps of a life -/

section Steps

variable {cfg : Setup} {u : LossyUpdater σ} {v : DnsUpdater σ} {D : String → Prop} {s t : Served σ} {n : Ledger}
  {domain : String}

/-- If the step is a call, it is one for a domain of `D`. -/
def CallFor (D : String → Prop) (s : Served σ) (e : TaskEvent) : Prop := ∀ c ∈ s.task.callOf e, D c.key

instance [DecidablePred D] (s : Served σ) (e : TaskEvent) : Decidable (CallFor D s e) :=
  inferInstanceAs (Decidable (∀ c ∈ s.task.callOf e, D c.key))

/-- A query, as the updater answers it. -/
theorem getRecord_of_serve {answer : Except Error (Option Ipv6Addr)} {suffix : Ipv6Addr} {d : String}
    {todo : List (Ipv6Addr × String)} (hpc : s.task.pc = .seeding ((suffix, d) :: todo)) {w : σ}
    (h : serve v s (.main (.seedRecord answer)) = some w) : v.getRecord d s.world = (answer, w) := by
  simp only [serve, hpc] at h
  split at h
  · rename_i hanswer
    cases h
    exact Prod.ext hanswer rfl
  · cases h

/-- A call, as the updater carries it out. -/
theorem setRecord_of_serve {outcome : Except Error Unit} {d : String} {addr : Ipv6Addr}
    (hnext : s.task.nextCall = some (d, addr)) {w : σ} (h : serve v s (.main (.host outcome)) = some w) :
    v.setRecord d addr s.world = (outcome, w) := by
  simp only [serve, hnext] at h
  split at h
  · rename_i houtcome
    cases h
    exact Prod.ext houtcome rfl
  · cases h

/-- A query that is answered tells the record; then the cache has it, too. -/
theorem booked_query (hs : ServesAs u v D) {answer : Except Error (Option Ipv6Addr)} {e : Ipv6Addr × String}
    (hd : D e.2) {w : σ} (hget : v.getRecord e.2 s.world = (answer, w))
    (hn : Booked (s.task.cache domain) (u.records s.world domain) n) :
    Booked ((seedCache (answering (.ok ()) answer) [e] ⟨s.task.cache, ()⟩).cache domain) (u.records w domain)
      (match answer with
        | .ok _ => if e.2 = domain then { n with informed := true } else n
        | .error _ => n) := by
  obtain ⟨suffix, d⟩ := e
  rw [hs.getRecord d hd] at hget
  have hframe := u.getRecord_frame d s.world
  have htruth := u.getRecord_truth d s.world
  rw [hget] at hframe htruth
  simp only at hframe htruth
  rw [hframe]
  rcases answer with err | _ | addr
  · exact hn
  · by_cases hdd : d = domain
    · subst hdd
      have hrecord : none = u.records s.world d := htruth none rfl
      simp only [seedCache, answering, if_true]
      rw [← hrecord] at hn ⊢
      exact hn.readNone
    · simp only [seedCache, answering, if_neg hdd]
      exact hn
  · by_cases hdd : d = domain
    · subst hdd
      have hrecord : some addr = u.records s.world d := htruth (some addr) rfl
      simp only [seedCache, answering, if_true, Function.update_self]
      rw [← hrecord] at hn ⊢
      exact hn.read
    · simp only [seedCache, answering, if_neg hdd, Function.update_of_ne (Ne.symm hdd)]
      exact hn

/-- A host whose record is set, or not, in any way. -/
theorem booked_call (hs : ServesAs u v D) {outcome : Except Error Unit} {d : String} {addr : Ipv6Addr} (hd : D d)
    {w : σ} (hset : v.setRecord d addr s.world = (outcome, w)) (hne : s.task.cache d ≠ some addr)
    (hn : Booked (s.task.cache domain) (u.records s.world domain) n) :
    Booked ((updateHost (answering outcome (.ok none)) addr d ⟨s.task.cache, ()⟩).2.cache domain) (u.records w domain)
      (if d = domain then n.call (u.records s.world domain) addr outcome else n) := by
  rw [hs.setRecord d hd] at hset
  simp only [updateHost, if_neg hne]
  by_cases hdd : d = domain
  · subst hdd
    rw [if_pos rfl]
    cases outcome with
    | ok _ =>
      have hrecord := u.setRecord_ok d addr s.world (by rw [hset])
      rw [hset] at hrecord
      simp only at hrecord
      simp only [answering, hrecord, Function.update_self]
      exact hn.ok hne
    | error err => exact hn.error hne err _
  · have hrecord : u.records w domain = u.records s.world domain := by
      have hother := u.store.view_write_ne (k := d) (v := addr) (Ne.symm hdd) s.world
      simp only [LossyUpdater.store, hset] at hother
      exact hother
    rw [if_neg hdd, hrecord]
    cases outcome with
    | ok _ =>
      simp only [answering, Function.update_of_ne (Ne.symm hdd)]
      exact hn
    | error err => exact hn

/-- **Every step is accounted for.** -/
theorem booked_step (hs : ServesAs u v D) {e : TaskEvent}
    (hn : Booked (s.task.cache domain) (u.records s.world domain) n) (hf : CallFor D s e)
    (h : servedStep cfg v s e = some t) :
    Booked (t.task.cache domain) (u.records t.world domain) (n.note u domain s e t) := by
  obtain ⟨htask, hserve⟩ := taskStep_of_servedStep h
  obtain ⟨task, world⟩ := t
  simp only at htask hserve ⊢
  obtain ⟨-, ⟨m, rfl, hm⟩ | ⟨l, rfl, hl⟩ | ⟨g, rfl, hg⟩⟩ := taskStep_cases htask
  · cases mainStep_cases hm with
    | seedRecord answer e todo hpc =>
      obtain ⟨suffix, d⟩ := e
      have hquery : .read d ∈ s.task.callOf (.main (.seedRecord answer)) := by
        simp only [TaskState.callOf, TaskState.nextQuery, hpc]
        rfl
      have hbooked := booked_query hs (e := (suffix, d)) (hf _ hquery) (getRecord_of_serve hpc hserve) hn
      simp only [Ledger.note, hpc]
      cases answer <;> exact hbooked
    | host outcome startup p suffix d todo hpc =>
      simp only [Ledger.note, hpc]
      by_cases hcache : s.task.cache d = some (combine p suffix)
      · -- the host is skipped
        have hnext : s.task.nextCall = none := by simp only [TaskState.nextCall, hpc, if_pos hcache]
        simp only [serve, hnext] at hserve
        cases hserve
        simp only [hnext, updateHost, if_pos hcache]
        split
        · rename_i hdd
          subst hdd
          rw [hcache] at hn ⊢
          exact hn.skip
        · exact hn
      · have hnext : s.task.nextCall = some (d, combine p suffix) := by
          simp only [TaskState.nextCall, hpc, if_neg hcache]
        have hcall : .write d (combine p suffix) ∈ s.task.callOf (.main (.host outcome)) := by
          simp only [TaskState.callOf, hnext]
          rfl
        simp only [hnext]
        exact booked_call hs (hf _ hcall) (setRecord_of_serve hnext hserve) hcache hn
    | spawnListener hpc | newReturns hpc | seedHosts discovered hpc | startupCycle hpc | callDetect startup hpc
    | detectReturns answers startup c hpc ok error | discovered hosts startup p hpc | endCycle startup c hpc hc
    | spawnSignalTasks hpc | subscribe hpc | changed r r' hpc hr hc | notified hpc hp | cancelled hpc hc =>
      cases hserve
      exact hn
  · obtain ⟨-, -, hcache, -⟩ := listenerStep_frame hl
    rw [hcache, ← Option.some.inj hserve]
    exact hn
  · obtain ⟨hcache, -⟩ := signalStep_frame hg
    rw [hcache, ← Option.some.inj hserve]
    exact hn

end Steps

/-! ## Lives -/

section Lives

variable {u : LossyUpdater σ} {v : DnsUpdater σ} {D : String → Prop} {n : Ledger} {domain : String}

/-- The process with the observer of the domain. -/
def bookedStep (u : LossyUpdater σ) (v : DnsUpdater σ) (domain : String) (cfg : Setup) :
    Served σ × Ledger → TaskEvent → Option (Served σ × Ledger) :=
  observed (servedStep cfg v) (Ledger.note u domain)

/-- Process start, with the server and the ledger that there are. -/
def bornWith (p : σ × Ledger) : Served σ × Ledger := (.init p.1, p.2.begin)

/-- A life of the process. The server and the ledger stay. -/
def processLife (u : LossyUpdater σ) (v : DnsUpdater σ) (domain : String) :
    σ × Ledger → Life Setup TaskEvent → Option (σ × Ledger) :=
  live (bookedStep u v domain) bornWith fun x => (x.1.world, x.2)

/-- The calls of a life are for domains of `D`. -/
def LifeFor (u : LossyUpdater σ) (v : DnsUpdater σ) (domain : String) (D : String → Prop) :
    σ × Ledger → Life Setup TaskEvent → Prop :=
  AlongLife (bookedStep u v domain) bornWith fun x e => CallFor D x.1 e

instance [DecidablePred D] (p : σ × Ledger) (l : Life Setup TaskEvent) : Decidable (LifeFor u v domain D p l) :=
  inferInstanceAs (Decidable (AlongLife _ _ _ _ _))

/-- **What lives cost**: over any number of lives of the process, each with a configuration of its own and ending
anywhere, no more calls of a domain are acknowledged than its wanted address changes, beginning with the record that the
server has at first, and than lives called blindly for the address that was there. Without failures it is exactly so
many, and the server has the wanted address. -/
theorem lives_tally (hs : ServesAs u v D) {w w' : σ} {ls : List (Life Setup TaskEvent)}
    (hf : Along (processLife u v domain) (LifeFor u v domain D) (w, .start (u.records w domain)) ls)
    (hr : run (processLife u v domain) (w, .start (u.records w domain)) ls = some (w', n)) :
    n.tally.acknowledged ≤ n.tally.changes + n.wasted ∧ n.wasted ≤ n.blind ∧
      (n.tally.failed = 0 → n.tally.acknowledged = n.tally.changes + n.wasted ∧
        u.records w' domain = n.tally.wanted) := by
  have hinit : ∃ c, Booked c (u.records w domain) (.start (u.records w domain)) := ⟨none, booked_start _⟩
  obtain ⟨c, hn⟩ : ∃ c, Booked c (u.records w' domain) n := by
    refine lives_inv (I := fun x => Booked (x.1.task.cache domain) (u.records x.1.world domain) x.2)
      (J := fun p => ∃ c, Booked c (u.records p.1 domain) p.2) (fun p ⟨_, hp⟩ => hp.begin)
      (fun cfg x e y hx hd h => ?_) (fun x hx => ⟨_, hx⟩) hinit hf hr
    obtain ⟨t, ht, rfl⟩ := observed_eq_some.1 h
    exact booked_step hs hx hd ht
  exact ⟨hn.le, hn.wasted, fun hz => ⟨(hn.even hz).2.2, (hn.even hz).1⟩⟩

end Lives

/-- **What restarts cost at a name server**, whatever happens to the messages of all lives: no more acknowledged calls
than changes of the wanted address, and one more for each life that calls blindly for the address that is there. -/
theorem rfc2136_restarts (domain : String) (w : RemoteNameServer) {ls : List (Life Setup TaskEvent)}
    {w' : RemoteNameServer} {n : Ledger}
    (hr : run (processLife nameServerLossy nameServerUpdater.toDnsUpdater domain)
      (w, .start (w.state.firstRecords domain)) ls = some (w', n)) :
    n.tally.acknowledged ≤ n.tally.changes + n.wasted ∧ n.wasted ≤ n.blind ∧
      (n.tally.failed = 0 → n.tally.acknowledged = n.tally.changes + n.wasted ∧
        w'.state.firstRecords domain = n.tally.wanted) := by
  have hall : ∀ p l, LifeFor nameServerLossy nameServerUpdater.toDnsUpdater domain (fun _ => True) p l := fun p l =>
    Along.imp (fun _ _ _ _ _ => trivial) along_true
  exact lives_tally rfc2136_servesAs (Along.imp (fun p l _ => hall p l) along_true) hr

/-- The startup of a life that reads `record`, up to the hosts of its first cycle, with the prefix
`2001:db8:1:net::`. -/
def lifeStart (record : Except Error (Option Ipv6Addr)) (net : UInt16) : List TaskEvent :=
  [.main .spawnListener, .main .newReturns, .main (.seedHosts none), .main (.seedRecord record),
    .main .startupCycle, .main .callDetect,
    .main (.detectReturns
      ⟨.error "", .ok (.ok [⟨true, some (.v6 ⟨0x2001, 0xdb8, 1, net, 0, 0, 0, 7⟩), false, true, none⟩])⟩),
    .main (.discovered none)]

/-- A message whose answer is lost. -/
def timedOut : Error := .update "nas.example.com" (.client "timed out")

/-- Three lives. The second finds the record that the first has set, and is killed when the prefix has changed, before
it hears that its update was applied. The query of the third fails, so it calls blindly. -/
def sampleLives : List (Life Setup TaskEvent) :=
  [⟨netlinkSetup, lifeStart (.ok none) 1 ++ [.main (.host (.ok ()))]⟩,
    ⟨netlinkSetup, lifeStart (.ok (some ⟨0x2001, 0xdb8, 1, 1, 0, 0, 0, 1⟩)) 1 ++ [.main (.host (.ok ()))] ++
      enterEvents ++ addressEvents ++ [.main .changed, .main .callDetect,
        .main (.detectReturns
          ⟨.error "", .ok (.ok [⟨true, some (.v6 ⟨0x2001, 0xdb8, 1, 2, 0, 0, 0, 7⟩), false, true, none⟩])⟩),
        .main (.discovered none), .main (.host (.error timedOut))]⟩,
    ⟨netlinkSetup, lifeStart (.error timedOut) 2 ++ [.main (.host (.ok ()))]⟩]

/-- The name server before them, and what happens to the messages. -/
def beforeLives : RemoteNameServer :=
  ⟨fun _ => [], [.good _, .good _, .good _, .good _, .good _, .good _, .good _, lostMessage true, lostMessage true]⟩

/-- Two changes, and a call that was wasted. -/
theorem rfc2136_restarts_nas : ∃ w n,
    run (processLife nameServerLossy nameServerUpdater.toDnsUpdater "nas.example.com") (beforeLives, .start none)
      sampleLives = some (w, n) ∧
    (n.tally.changes = 2 ∧ n.wasted = 1 ∧ n.tally.acknowledged = 2) ∧
    n.tally.acknowledged ≤ n.tally.changes + n.wasted ∧ n.wasted ≤ n.blind ∧
      (n.tally.failed = 0 → n.tally.acknowledged = n.tally.changes + n.wasted ∧
        w.state.firstRecords "nas.example.com" = n.tally.wanted) :=
  ⟨_, _, rfl, by decide, rfc2136_restarts "nas.example.com" beforeLives (show run _ _ sampleLives = _ from rfl)⟩

/-- **What restarts cost at a zone**, whatever happens to the requests, if the list request asks for every domain that
is queried or set. -/
theorem cloudflare_restarts (api : ZoneApi) (token domain : String) (w : Remote api.service)
    {ls : List (Life Setup TaskEvent)} {w' : Remote api.service} {n : Ledger}
    (hf : Along (processLife (cloudflareRemote api token).lossy ((api.updater token).toDnsUpdater api.http) domain)
      (LifeFor (cloudflareRemote api token).lossy ((api.updater token).toDnsUpdater api.http) domain QueriesOwn)
      (w, .start (firstAddress w.state.records domain)) ls)
    (hr : run (processLife (cloudflareRemote api token).lossy ((api.updater token).toDnsUpdater api.http) domain)
      (w, .start (firstAddress w.state.records domain)) ls = some (w', n)) :
    n.tally.acknowledged ≤ n.tally.changes + n.wasted ∧ n.wasted ≤ n.blind ∧
      (n.tally.failed = 0 → n.tally.acknowledged = n.tally.changes + n.wasted ∧
        firstAddress w'.state.records domain = n.tally.wanted) :=
  lives_tally (cloudflare_servesAs api token) hf hr

/-- Two lives. The second finds the record that the first has set. -/
def twoLives : List (Life Setup TaskEvent) :=
  [⟨netlinkSetup, lifeStart (.ok none) 1 ++ [.main (.host (.ok ()))]⟩,
    ⟨netlinkSetup, lifeStart (.ok (some ⟨0x2001, 0xdb8, 1, 1, 0, 0, 0, 1⟩)) 1 ++ [.main (.host (.ok ()))]⟩]

set_option maxRecDepth 4000 in
/-- The restart is free. -/
theorem cloudflare_restarts_free : ∃ w n,
    run (processLife (cloudflareRemote sampleApi "token").lossy
      ((sampleApi.updater "token").toDnsUpdater sampleApi.http) "nas.example.com")
      (⟨emptyZone, []⟩, .start none) twoLives = some (w, n) ∧
    (n.tally.changes = 1 ∧ n.wasted = 0) ∧
    n.tally.acknowledged ≤ n.tally.changes + n.wasted ∧ n.wasted ≤ n.blind ∧
      (n.tally.failed = 0 → n.tally.acknowledged = n.tally.changes + n.wasted ∧
        firstAddress w.state.records "nas.example.com" = n.tally.wanted) :=
  ⟨_, _, rfl, by decide, cloudflare_restarts sampleApi "token" "nas.example.com" ⟨emptyZone, []⟩ (by decide)
    (show run _ _ twoLives = _ from rfl)⟩

end DdnsIpv6

import DdnsIpv6.Cycle
import DdnsIpv6.Lib.WriteThrough.Coherence

/-!
# The cache against the server

A `RemoteUpdater` writes the records of a server that nobody else writes, one AAAA record for each domain. Its calls end
in one of three ways, the third being an error for a write that the server applied. The daemon drops no cache entry
after an error, so exactly that ending, for a domain that has a cache entry, makes the cache disagree with the server
(`skipSafe_iff`).
-/

namespace DdnsIpv6

open Lib Lib.WriteThrough

variable {σ : Type*}

/-- An updater and the records of its server. -/
structure RemoteUpdater (σ : Type*) extends DnsUpdater σ where
  /-- The AAAA record of each domain. -/
  records : σ → Cache String Ipv6Addr
  /-- A write is acknowledged and applied, or refused and not applied, or refused and applied. -/
  setRecord_ends : ∀ domain addr w,
    ((setRecord domain addr w).1 = .ok () ∧
      records (setRecord domain addr w).2 = Function.update (records w) domain (some addr)) ∨
    (∃ e, (setRecord domain addr w).1 = .error e) ∧
      (records (setRecord domain addr w).2 = records w ∨
        records (setRecord domain addr w).2 = Function.update (records w) domain (some addr))
  /-- A query changes no record. -/
  getRecord_frame : ∀ domain w, records (getRecord domain w).2 = records w
  /-- An answered query tells the record of the domain. -/
  getRecord_truth : ∀ domain w r, (getRecord domain w).1 = .ok r → r = records w domain

/-- The server as a store under the cache. -/
def RemoteUpdater.store (u : RemoteUpdater σ) : Store String Ipv6Addr σ Error where
  write := u.setRecord
  view := u.records
  ends := u.setRecord_ends

/-- The daemon at process start: nothing in the cache. -/
def atStart (w : σ) : Daemon σ := ⟨fun _ => none, w⟩

/-- Skip safety of a run, `seeds` being the hosts that the cache is seeded for and `rs` the cycles after it: in every
state that is reached the cache has what the server has, and so has the server of every host that is skipped. -/
structure SkipSafe (u : RemoteUpdater σ) (seeds : List (Ipv6Addr × String)) (w : σ) (rs : List (CycleResult σ)) :
    Prop where
  seeding : ∀ es fs, seeds = es ++ fs → Coherent u.store (seedCache u.toDnsUpdater es (atStart w))
  hosts : ∀ r ∈ rs, ∀ x ∈ r.visits, Coherent u.store x.before
  cycles : ∀ r ∈ rs, Coherent u.store r.state
  skipped : ∀ r ∈ rs, ∀ x ∈ r.visits, x.report = .skipped → u.records x.before.store x.key = some x.value

section Lemmas

variable {u : RemoteUpdater σ} {staticSuffixes : List (Ipv6Addr × String)} {s : Daemon σ}

/-- **Seeding keeps coherence**, for queries that change no record and tell it when they are answered. -/
theorem coherentView_seedCache {v : DnsUpdater σ} {records : σ → Cache String Ipv6Addr}
    (hframe : ∀ domain w, records (v.getRecord domain w).2 = records w)
    (htruth : ∀ domain w r, (v.getRecord domain w).1 = .ok r → r = records w domain) :
    ∀ {es : List (Ipv6Addr × String)} {s : Daemon σ}, CoherentView records s →
    CoherentView records (seedCache v es s)
  | [], _, h => h
  | (_, domain) :: es, s, h => by
    have hkeep : CoherentView records ⟨s.cache, (v.getRecord domain s.store).2⟩ := by
      intro d a hc
      rw [hframe]
      exact h d a hc
    rw [seedCache]
    rcases hg : v.getRecord domain s.store with ⟨_ | _ | addr, w⟩ <;> rw [hg] at hkeep
    · exact coherentView_seedCache hframe htruth hkeep
    · exact coherentView_seedCache hframe htruth hkeep
    · refine coherentView_seedCache hframe htruth fun d a hc => ?_
      by_cases hd : d = domain
      · -- the entry just read: the server has it, and reading did not change that
        subst hd
        have hread := htruth d s.store (some addr) (by rw [hg])
        have hsame := hframe d s.store
        rw [hg] at hsame
        rw [show records w = records s.store from hsame, ← hread]
        simpa only [Function.update_self] using hc
      · exact hkeep d a (by simpa only [Function.update_of_ne hd] using hc)

theorem coherent_seedCache {es : List (Ipv6Addr × String)} {s : Daemon σ} (h : Coherent u.store s) :
    Coherent u.store (seedCache u.toDnsUpdater es s) :=
  coherentView_seedCache u.getRecord_frame u.getRecord_truth h

theorem coherent_atStart (w : σ) : Coherent u.store (atStart w) := fun _ _ h => nomatch h

/-- **One cycle** from a coherent state: the state after it is coherent exactly when no call of the cycle was applied
and refused under a cache entry. -/
theorem coherent_cycle_iff {i : CycleInput} (h : Coherent u.store s)
    (hnd : ((allSuffixes staticSuffixes (i.discovered.getD [])).map Prod.snd).Nodup) :
    Coherent u.store (runUpdateCycle u.toDnsUpdater i.detected staticSuffixes i.discovered s).state ↔
      ∀ x ∈ (runUpdateCycle u.toDnsUpdater i.detected staticSuffixes i.discovered s).visits,
        ¬u.store.StaleMaker x := by
  cases i.detected with
  | error e => exact ⟨fun _ _ hx => absurd hx List.not_mem_nil, fun _ => h⟩
  | ok p =>
    rw [runUpdateCycle_state, runUpdateCycle_visits]
    exact coherent_iff h (by rw [cycleTargets, targets_keys]; exact hnd)

/-- The hosts of a cycle without such a call meet coherent states, and are skipped rightly. -/
theorem hosts_of_cycle {i : CycleInput} (h : Coherent u.store s)
    (hn : ∀ x ∈ (runUpdateCycle u.toDnsUpdater i.detected staticSuffixes i.discovered s).visits,
      ¬u.store.StaleMaker x) :
    ∀ x ∈ (runUpdateCycle u.toDnsUpdater i.detected staticSuffixes i.discovered s).visits,
      Coherent u.store x.before ∧ (x.report = .skipped → u.records x.before.store x.key = some x.value) := by
  cases hd : i.detected with
  | error e => exact fun _ hx => absurd hx List.not_mem_nil
  | ok p =>
    rw [hd, runUpdateCycle_visits] at hn
    rw [runUpdateCycle_visits]
    intro x hx
    have hc : Coherent u.store x.before := coherent_before (S := u.store) h hn x hx
    exact ⟨hc, fun hr => hc _ _ (pass_skipped hx hr)⟩

/-- All cycles of a run from a coherent state. -/
theorem coherent_cycles_iff : ∀ {is : List CycleInput} {s : Daemon σ}, Coherent u.store s →
    (∀ i ∈ is, ((allSuffixes staticSuffixes (i.discovered.getD [])).map Prod.snd).Nodup) →
    ((∀ r ∈ runCycles u.toDnsUpdater staticSuffixes is s, Coherent u.store r.state) ↔
      ∀ r ∈ runCycles u.toDnsUpdater staticSuffixes is s, ∀ x ∈ r.visits, ¬u.store.StaleMaker x)
  | [], _, _, _ => by simp [runCycles]
  | i :: is, s, h, hnd => by
    have hcycle := coherent_cycle_iff h (hnd i List.mem_cons_self)
    have hrest := fun hr => coherent_cycles_iff (s := (runUpdateCycle u.toDnsUpdater i.detected staticSuffixes
      i.discovered s).state) hr fun j hj => hnd j (List.mem_cons_of_mem _ hj)
    simp only [runCycles, List.forall_mem_cons]
    constructor
    · rintro ⟨hr, hrs⟩
      exact ⟨hcycle.1 hr, (hrest hr).1 hrs⟩
    · rintro ⟨hn, hns⟩
      exact ⟨hcycle.2 hn, (hrest (hcycle.2 hn)).2 hns⟩

/-- The hosts of all cycles of such a run. -/
theorem hosts_of_cycles : ∀ {is : List CycleInput} {s : Daemon σ}, Coherent u.store s →
    (∀ r ∈ runCycles u.toDnsUpdater staticSuffixes is s, Coherent u.store r.state) →
    (∀ r ∈ runCycles u.toDnsUpdater staticSuffixes is s, ∀ x ∈ r.visits, ¬u.store.StaleMaker x) →
    ∀ r ∈ runCycles u.toDnsUpdater staticSuffixes is s, ∀ x ∈ r.visits,
      Coherent u.store x.before ∧ (x.report = .skipped → u.records x.before.store x.key = some x.value)
  | [], _, _, _, _ => fun _ hr => absurd hr List.not_mem_nil
  | i :: is, s, h, hc, hn => by
    simp only [runCycles, List.forall_mem_cons] at hc hn ⊢
    exact ⟨hosts_of_cycle h hn.1, hosts_of_cycles hc.1 hc.2 hn.2⟩

end Lemmas

/-- **Skip safety, exactly.** Seed the cache for any hosts and run any cycles over hosts without repeated domains: the
run is skip safe if and only if no call for a domain with a cache entry ends in an error although it was applied. -/
theorem skipSafe_iff (u : RemoteUpdater σ) (staticSuffixes : List (Ipv6Addr × String))
    (seedDiscovered : Option (List HostEntry)) (is : List CycleInput) (w : σ)
    (hnd : ∀ i ∈ is, ((allSuffixes staticSuffixes (i.discovered.getD [])).map Prod.snd).Nodup) :
    let seeds := allSuffixes staticSuffixes (seedDiscovered.getD [])
    let rs := runCycles u.toDnsUpdater staticSuffixes is (seedCache u.toDnsUpdater seeds (atStart w))
    SkipSafe u seeds w rs ↔ ∀ r ∈ rs, ∀ x ∈ r.visits, ¬u.store.StaleMaker x := by
  intro seeds rs
  have hseed : Coherent u.store (seedCache u.toDnsUpdater seeds (atStart w)) := coherent_seedCache (coherent_atStart w)
  have hiff := coherent_cycles_iff hseed hnd
  refine ⟨fun h => hiff.1 h.cycles, fun hn => ?_⟩
  have hhosts := hosts_of_cycles hseed (hiff.2 hn) hn
  exact ⟨fun es _ _ => coherent_seedCache (coherent_atStart w), fun r hr x hx => (hhosts r hr x hx).1, hiff.2 hn,
    fun r hr x hx => (hhosts r hr x hx).2⟩

/-! ## A server that answers by a script -/

/-- How a call ends. -/
inductive Ending where
  | applied
  | refused
  | lost
  deriving DecidableEq, Repr

/-- The records, and the endings of the calls to come. -/
structure ScriptedServer where
  records : Cache String Ipv6Addr
  script : List Ending

/-- One call at the scripted server. -/
def ScriptedServer.set (domain : String) (addr : Ipv6Addr) (w : ScriptedServer) : Except Error Unit × ScriptedServer :=
  match w.script.headD .applied with
  | .applied => (.ok (), ⟨Function.update w.records domain (some addr), w.script.tail⟩)
  | .refused => (.error (.update domain (.client "connection refused")), ⟨w.records, w.script.tail⟩)
  | .lost => (.error (.update domain (.client "operation timed out")),
      ⟨Function.update w.records domain (some addr), w.script.tail⟩)

/-- The updater of the scripted server. -/
def scriptedUpdater : RemoteUpdater ScriptedServer where
  setRecord := ScriptedServer.set
  getRecord domain w := (.ok (w.records domain), w)
  records := ScriptedServer.records
  setRecord_ends domain addr w := by
    unfold ScriptedServer.set
    cases w.script.headD .applied
    · exact Or.inl ⟨rfl, rfl⟩
    · exact Or.inr ⟨⟨_, rfl⟩, Or.inl rfl⟩
    · exact Or.inr ⟨⟨_, rfl⟩, Or.inr rfl⟩
  getRecord_frame _ _ := rfl
  getRecord_truth _ _ _ h := (Except.ok.inj h).symm

/-- One host, and prefixes `2001:db8:0:n::`. -/
def nasOnly : List (Ipv6Addr × String) := [(⟨0, 0, 0, 0, 0, 0, 0, 1⟩, "nas.example.com")]

def prefixInput (n : UInt16) : CycleInput := ⟨.ok ⟨0x2001, 0xdb8, 0, n, 0, 0, 0, 0⟩, none⟩

/-- A refused call that was not applied does no harm. -/
theorem skipSafe_refused :
    SkipSafe scriptedUpdater nasOnly ⟨fun _ => none, [.applied, .refused]⟩
      (runCycles scriptedUpdater.toDnsUpdater nasOnly [prefixInput 1, prefixInput 2, prefixInput 2]
        (seedCache scriptedUpdater.toDnsUpdater nasOnly (atStart ⟨fun _ => none, [.applied, .refused]⟩))) := by
  refine (skipSafe_iff scriptedUpdater nasOnly none _ _ (by decide)).2 fun r hr x hx hstale => ?_
  -- the one visit with an error left the server's record as it was
  have hlost : ∀ r ∈ runCycles scriptedUpdater.toDnsUpdater nasOnly [prefixInput 1, prefixInput 2, prefixInput 2]
      (seedCache scriptedUpdater.toDnsUpdater nasOnly (atStart ⟨fun _ => none, [.applied, .refused]⟩)),
      ∀ x ∈ r.visits, x.report.answer = some false →
        (scriptedUpdater.setRecord x.key x.value x.before.store).2.records x.key ≠ some x.value := by decide
  have happlied := congrFun hstale.2.2 x.key
  rw [Function.update_self] at happlied
  exact hlost r hr x hx hstale.2.1 happlied

/-- The prefix changes from 1 to 2 and back. The answer to the second call is lost after the server applied it; the
third cycle skips the host, whose record is still that of prefix 2. -/
theorem not_skipSafe_lost :
    (∀ i ∈ [prefixInput 1, prefixInput 2, prefixInput 1],
      ((allSuffixes nasOnly (i.discovered.getD [])).map Prod.snd).Nodup) ∧
    ¬SkipSafe scriptedUpdater nasOnly ⟨fun _ => none, [.applied, .lost]⟩
      (runCycles scriptedUpdater.toDnsUpdater nasOnly [prefixInput 1, prefixInput 2, prefixInput 1]
        (seedCache scriptedUpdater.toDnsUpdater nasOnly (atStart ⟨fun _ => none, [.applied, .lost]⟩))) := by
  refine ⟨by decide, fun h => ?_⟩
  have hskip : ∃ r ∈ runCycles scriptedUpdater.toDnsUpdater nasOnly [prefixInput 1, prefixInput 2, prefixInput 1]
      (seedCache scriptedUpdater.toDnsUpdater nasOnly (atStart ⟨fun _ => none, [.applied, .lost]⟩)),
      ∃ x ∈ r.visits, x.report = .skipped ∧ scriptedUpdater.records x.before.store x.key ≠ some x.value := by decide
  obtain ⟨r, hr, x, hx, hs, hne⟩ := hskip
  exact hne (h.skipped r hr x hx hs)

end DdnsIpv6

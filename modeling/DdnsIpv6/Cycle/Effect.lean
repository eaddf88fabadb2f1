import DdnsIpv6.Cycle

/-!
# What an update cycle does

- `runUpdateCycle_effect`: the cache after a cycle and the calls of a cycle, for every pattern of successes and
  failures and every host list, with repeated domains or without;
- `second_cycle_quiet_iff`: a second cycle with the same prefix and the same hosts is quiet exactly when the entries of
  each domain ask for one address. Entries that do not are written in every cycle, in turns.
-/

namespace DdnsIpv6

open Lib Lib.WriteThrough

variable {σ : Type*}

/-- The effect of a cycle `r` with prefix `p` that starts in the state `s`, over the host list `es`. -/
structure CycleEffect (u : DnsUpdater σ) (p : Ipv6Addr) (es : List (Ipv6Addr × String)) (s : Daemon σ)
    (r : CycleResult σ) : Prop where
  /-- Every host of the list is visited, in order, with its combined address. -/
  visited : r.visits.map (fun x => (x.key, x.value)) = es.map fun e => (e.2, combine p e.1)
  /-- A host whose address the cache has is skipped, every other one is a call. -/
  called : ∀ x ∈ r.visits, x.report.isCall = true ↔ x.before.cache x.key ≠ some x.value
  /-- A call is reported successful when `set_record` answers so. -/
  succeeded : ∀ x ∈ r.visits, x.report = .written ↔
    x.before.cache x.key ≠ some x.value ∧ (u.setRecord x.key x.value x.before.store).1 = .ok ()
  /-- A call is reported failed when `set_record` answers with that error. -/
  refused : ∀ x ∈ r.visits, ∀ e, x.report = .failed e ↔
    x.before.cache x.key ≠ some x.value ∧ (u.setRecord x.key x.value x.before.store).1 = .error e
  /-- A host meets the world that the calls before it lead to, and their successes in the cache. -/
  met : ∀ vs x ws, r.visits = vs ++ x :: ws → Made u.setRecord s.store vs x.before.store ∧
    ∀ d, x.before.cache d = (lastWritten d vs).or (s.cache d)
  /-- These are all the calls of `set_record`: one after the other they lead to the world that the cycle leaves. -/
  made : Made u.setRecord s.store r.visits r.state.store
  /-- Domains that are not in the list keep their entries. -/
  others : ∀ d, d ∉ es.map Prod.snd → r.state.cache d = s.cache d
  /-- The last successful call of a domain decides its entry. -/
  lastSuccess : ∀ vs x ws, r.visits = vs ++ x :: ws → x.report = .written →
    (∀ y ∈ ws, y.key = x.key → y.report ≠ .written) → r.state.cache x.key = some x.value
  /-- A domain without a successful call keeps its entry. -/
  noSuccess : ∀ d, (∀ y ∈ r.visits, y.key = d → y.report ≠ .written) → r.state.cache d = s.cache d
  /-- The last entry of a domain wins, if it was skipped or successful. -/
  lastEntry : ∀ vs x ws, r.visits = vs ++ x :: ws → (∀ y ∈ ws, y.key ≠ x.key) →
    (x.report = .skipped ∨ x.report = .written) → r.state.cache x.key = some x.value
  /-- Without repeated domains the calls are the hosts that the old cache disagrees with. -/
  calls : (es.map Prod.snd).Nodup → calls r.visits =
    (es.filter fun e => s.cache e.2 ≠ some (combine p e.1)).map fun e => (e.2, combine p e.1)

section Lemmas

variable {u : DnsUpdater σ} {p : Ipv6Addr} {es : List (Ipv6Addr × String)} {s : Daemon σ} {r : Report Error}

theorem answer_written : r.answer = some true ↔ r = .written := by cases r <;> simp [Report.answer]

theorem answer_failed : r.answer ≠ some false ↔ r = .skipped ∨ r = .written := by cases r <;> simp [Report.answer]

/-- The calls of a pass over the targets, in terms of the hosts. -/
theorem calls_targets (h : (es.map Prod.snd).Nodup) : calls (pass u.setRecord (targets p es) s).1 =
    (es.filter fun e => s.cache e.2 ≠ some (combine p e.1)).map fun e => (e.2, combine p e.1) := by
  rw [calls_of_nodup (by rw [targets_keys]; exact h), targets, List.filter_map]
  rfl

/-- Hosts contradict each other as their suffixes do. -/
theorem targets_consistent_iff :
    (∀ e ∈ targets p es, ∀ e' ∈ targets p es, e.1 = e'.1 → e.2 = e'.2) ↔
      ∀ e ∈ es, ∀ e' ∈ es, e.2 = e'.2 → e.1.lower64 = e'.1.lower64 := by
  simp only [targets, List.forall_mem_map, combine_eq_iff, true_and]

end Lemmas

variable (u : DnsUpdater σ) (p : Ipv6Addr) (staticSuffixes : List (Ipv6Addr × String))
  (discovered : Option (List HostEntry)) (s : Daemon σ)

/-- **The exact effect of an update cycle.** A failed detection changes nothing and calls nobody; a detected prefix has
the effect `CycleEffect`, whatever the updater answers. -/
theorem runUpdateCycle_effect :
    (∀ e, (runUpdateCycle u (.error e) staticSuffixes discovered s).visits = [] ∧
      (runUpdateCycle u (.error e) staticSuffixes discovered s).state = s) ∧
    ∀ p, CycleEffect u p (allSuffixes staticSuffixes (discovered.getD [])) s
      (runUpdateCycle u (.ok p) staticSuffixes discovered s) := by
  refine ⟨fun e => ⟨rfl, rfl⟩, fun p => ?_⟩
  constructor
  · rw [runUpdateCycle_visits, pass_entries]
    rfl
  · rw [runUpdateCycle_visits]
    exact fun x hx => pass_isCall hx
  · rw [runUpdateCycle_visits]
    exact fun x hx => (pass_report hx).1
  · rw [runUpdateCycle_visits]
    exact fun x hx => (pass_report hx).2
  · intro vs x ws hs
    rw [runUpdateCycle_visits] at hs
    exact pass_met hs
  · exact runUpdateCycle_made _
  · intro d hd
    rw [runUpdateCycle_state, pass_cache_ne]
    rw [cycleTargets, targets_keys]
    exact hd
  · intro vs x ws hs hx hw
    rw [runUpdateCycle_visits] at hs
    rw [runUpdateCycle_state, pass_cache, hs,
      lastWritten_of_split (answer_written.2 hx) fun y hy hk => mt answer_written.1 (hw y hy hk)]
    rfl
  · intro d hd
    rw [runUpdateCycle_visits] at hd
    rw [runUpdateCycle_state, pass_cache, lastWritten_eq_none fun y hy hk => mt answer_written.1 (hd y hy hk)]
    rfl
  · intro vs x ws hs hlast hx
    rw [runUpdateCycle_visits] at hs
    rw [runUpdateCycle_state]
    exact pass_last hs hlast (answer_failed.2 hx)
  · intro hnd
    rw [runUpdateCycle_visits]
    exact calls_targets hnd

/-- **A second cycle with the same prefix and hosts**, after one in which no call failed, calls nobody and keeps the
cache, exactly when the hosts of each domain have one suffix. The calls are those that `set_record` gets: it answers
them as reported, and they alone make the worlds that the two cycles leave. -/
theorem second_cycle_quiet_iff
    (hok : ∀ x ∈ (runUpdateCycle u (.ok p) staticSuffixes discovered s).visits, x.report.answer ≠ some false) :
    let r := runUpdateCycle u (.ok p) staticSuffixes discovered s
    let r' := runUpdateCycle u (.ok p) staticSuffixes discovered r.state
    (((calls r'.visits = [] ∧ r'.state.cache = r.state.cache) ↔
      ∀ e ∈ allSuffixes staticSuffixes (discovered.getD []), ∀ e' ∈ allSuffixes staticSuffixes (discovered.getD []),
        e.2 = e'.2 → e.1.lower64 = e'.1.lower64) ∧
    Made u.setRecord s.store r.visits r.state.store ∧ Made u.setRecord r.state.store r'.visits r'.state.store) := by
  intro r r'
  refine ⟨?_, runUpdateCycle_made _, runUpdateCycle_made _⟩
  have hr : r.state = (pass u.setRecord (cycleTargets p staticSuffixes discovered) s).2 := runUpdateCycle_state
  have hv' : r'.visits = (pass u.setRecord (cycleTargets p staticSuffixes discovered) r.state).1 :=
    runUpdateCycle_visits
  have hr' : r'.state = (pass u.setRecord (cycleTargets p staticSuffixes discovered) r.state).2 :=
    runUpdateCycle_state
  rw [runUpdateCycle_visits] at hok
  have hagree := agrees_iff hok
  rw [← hr, ← pass_quiet_iff (w := u.setRecord)] at hagree
  rw [hv', hr', ← targets_consistent_iff (p := p), ← cycleTargets, ← hagree]
  refine ⟨fun h => h.1, fun h => ⟨h, ?_⟩⟩
  rw [(pass_of_agrees (pass_quiet_iff.1 h)).1]

/-! ## Two hosts and an updater that always succeeds -/

/-- The world is the list of the calls made, the last one first. -/
def recordingUpdater : DnsUpdater (List (String × Ipv6Addr)) where
  setRecord domain addr w := (.ok (), (domain, addr) :: w)
  getRecord domain w := (.ok (w.lookup domain), w)

/-- `2001:db8:1:2::` -/
def samplePrefix : Ipv6Addr := ⟨0x2001, 0xdb8, 1, 2, 0, 0, 0, 0⟩

/-- `::n` -/
def sampleSuffix (n : UInt16) : Ipv6Addr := ⟨0, 0, 0, 0, 0, 0, 0, n⟩

/-- Of two hosts the one that the cache has is skipped: the updater gets one call. -/
theorem runUpdateCycle_effect_nas :
    let r := runUpdateCycle recordingUpdater (.ok samplePrefix)
      [(sampleSuffix 1, "nas.example.com"), (sampleSuffix 2, "git.example.com")] none
      ⟨Function.update (fun _ => none) "nas.example.com" (some (combine samplePrefix (sampleSuffix 1))), []⟩
    r.state.store = [("git.example.com", combine samplePrefix (sampleSuffix 2))] ∧
      r.state.cache "git.example.com" = some (combine samplePrefix (sampleSuffix 2)) := by
  intro r
  have he := (runUpdateCycle_effect recordingUpdater [(sampleSuffix 1, "nas.example.com"),
    (sampleSuffix 2, "git.example.com")] none ⟨Function.update (fun _ => none) "nas.example.com"
      (some (combine samplePrefix (sampleSuffix 1))), []⟩).2 samplePrefix
  have hcalls : calls r.visits = [("git.example.com", combine samplePrefix (sampleSuffix 2))] :=
    (he.calls (by decide)).trans (by decide)
  have hmade := he.made
  rw [Made, hcalls] at hmade
  exact ⟨(congrArg Prod.snd hmade).symm, he.lastEntry [⟨_, _, _, _⟩] ⟨_, _, _, _⟩ [] rfl (by decide) (by decide)⟩

/-- Two hosts with different domains are quiet in the second cycle: the updater gets two calls in all. -/
theorem second_cycle_quiet_nas_git :
    let hosts := [(sampleSuffix 1, "nas.example.com"), (sampleSuffix 2, "git.example.com")]
    let r := runUpdateCycle recordingUpdater (.ok samplePrefix) hosts none ⟨fun _ => none, []⟩
    let r' := runUpdateCycle recordingUpdater (.ok samplePrefix) hosts none r.state
    r.state.store = [("git.example.com", combine samplePrefix (sampleSuffix 2)),
      ("nas.example.com", combine samplePrefix (sampleSuffix 1))] ∧
      r'.state.store = r.state.store ∧ r'.state.cache = r.state.cache := by
  intro hosts r r'
  obtain ⟨hquiet, _, hmade⟩ :=
    second_cycle_quiet_iff recordingUpdater samplePrefix hosts none ⟨fun _ => none, []⟩ (by decide)
  obtain ⟨hcalls, hcache⟩ := hquiet.2 (by decide)
  rw [Made, hcalls] at hmade
  exact ⟨by decide, (congrArg Prod.snd hmade).symm, hcache⟩

/-- A static host and a container with the same domain and different suffixes: no call fails, and the second cycle
calls the updater with both addresses again. -/
theorem second_cycle_not_quiet :
    let hosts := [(sampleSuffix 1, "nas.example.com")]
    let containers := some [⟨sampleSuffix 2, "nas.example.com"⟩]
    let r := runUpdateCycle recordingUpdater (.ok samplePrefix) hosts containers ⟨fun _ => none, []⟩
    let r' := runUpdateCycle recordingUpdater (.ok samplePrefix) hosts containers r.state
    (∀ x ∈ r.visits, x.report.answer ≠ some false) ∧
      calls r'.visits = [("nas.example.com", combine samplePrefix (sampleSuffix 1)),
        ("nas.example.com", combine samplePrefix (sampleSuffix 2))] ∧
      r'.state.store = [("nas.example.com", combine samplePrefix (sampleSuffix 2)),
        ("nas.example.com", combine samplePrefix (sampleSuffix 1))] ++ r.state.store := by
  decide

end DdnsIpv6

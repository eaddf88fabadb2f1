import DdnsIpv6.Config
import DdnsIpv6.Util
import DdnsIpv6.Updater
import DdnsIpv6.Lib.WriteThrough

/-!
# The update cycle

`seedCache` is the startup query of the current records and `runUpdateCycle` one update cycle: static hosts and
discovered hosts are merged, each entry is combined with the detected prefix, skipped when the cache agrees, and
written through the updater otherwise. The loop over the hosts is a write-through pass (`updateHosts_eq_pass`).
-/

namespace DdnsIpv6

open Lib Lib.WriteThrough

variable {σ : Type*}

/-- The cache of the daemon and the world of its updater. -/
abbrev Daemon (σ : Type*) := State String Ipv6Addr σ

/-- An entry of the host loop, with the state it met and what was done. -/
abbrev HostVisit (σ : Type*) := Visit String Ipv6Addr σ Error

/-- Static suffixes followed by the discovered hosts. -/
def allSuffixes (staticSuffixes : List (Ipv6Addr × String)) (discovered : List HostEntry) : List (Ipv6Addr × String) :=
  staticSuffixes ++ discovered.map fun h => (h.suffix, h.domain)

/-! ## Startup -/

/-- Seed the cache with the current DNS state. -/
def seedCache (u : DnsUpdater σ) : List (Ipv6Addr × String) → Daemon σ → Daemon σ
  | [], s => s
  | (_, domain) :: es, s =>
    match u.getRecord domain s.store with
    | (.ok (some addr), w) => seedCache u es ⟨Function.update s.cache domain (some addr), w⟩
    | (.ok none, w) => seedCache u es ⟨s.cache, w⟩
    | (.error _, w) => seedCache u es ⟨s.cache, w⟩

/-! ## One cycle -/

/-- The loop over the merged list: a domain met before is warned about (the first list), and its entry is kept all the
same (the second list). -/
def collectSuffixes : List String → List (Ipv6Addr × String) → List String × List (Ipv6Addr × String)
  | _, [] => ([], [])
  | seen, (suffix, domain) :: es =>
    if domain ∈ seen then
      (domain :: (collectSuffixes seen es).1, (suffix, domain) :: (collectSuffixes seen es).2)
    else
      ((collectSuffixes (domain :: seen) es).1, (suffix, domain) :: (collectSuffixes (domain :: seen) es).2)

/-- One host: skip it if the cache has the new address, else set its record and remember a success. -/
def updateHost (u : DnsUpdater σ) (newAddr : Ipv6Addr) (domain : String) (s : Daemon σ) : Report Error × Daemon σ :=
  if s.cache domain = some newAddr then (.skipped, s)
  else match u.setRecord domain newAddr s.store with
    | (.ok (), w) => (.written, ⟨Function.update s.cache domain (some newAddr), w⟩)
    | (.error e, w) => (.failed e, ⟨s.cache, w⟩)

/-- The host loop, with `error_count`. -/
def updateHosts (u : DnsUpdater σ) (p : Ipv6Addr) :
    List (Ipv6Addr × String) → Nat → Daemon σ → List (HostVisit σ) × Nat × Daemon σ
  | [], errorCount, s => ([], errorCount, s)
  | (suffix, domain) :: es, errorCount, s =>
    let newAddr := combine p suffix
    let (report, s') := updateHost u newAddr domain s
    let errorCount' := match report with
      | .failed _ => errorCount + 1
      | _ => errorCount
    let (visits, rest) := updateHosts u p es errorCount' s'
    (⟨s, domain, newAddr, report⟩ :: visits, rest)

/-- What a cycle leaves: what it did host by host, the hosts it warned about as duplicates, the errors it counted and
the state. -/
structure CycleResult (σ : Type*) where
  visits : List (HostVisit σ)
  duplicates : List String
  errorCount : Nat
  state : Daemon σ

/-- One update cycle. `detected` is the answer of the detector and `discovered` that of the Docker discoverer, if there
is one. -/
def runUpdateCycle (u : DnsUpdater σ) (detected : Except Error Ipv6Addr) (staticSuffixes : List (Ipv6Addr × String))
    (discovered : Option (List HostEntry)) (s : Daemon σ) : CycleResult σ :=
  match detected with
  | .error _ => ⟨[], [], 0, s⟩
  | .ok p =>
    let (duplicates, suffixes) := collectSuffixes [] (allSuffixes staticSuffixes (discovered.getD []))
    let (visits, errorCount, s') := updateHosts u p suffixes 0 s
    ⟨visits, duplicates, errorCount, s'⟩

/-! ## The loop is a write-through pass -/

/-- The writes that a prefix asks for. -/
def targets (p : Ipv6Addr) (es : List (Ipv6Addr × String)) : List (String × Ipv6Addr) :=
  es.map fun e => (e.2, combine p e.1)

theorem targets_keys (p : Ipv6Addr) (es : List (Ipv6Addr × String)) :
    (targets p es).map Prod.fst = es.map Prod.snd := by
  rw [targets, List.map_map]
  rfl

/-- Warnings drop no entry. -/
theorem collectSuffixes_snd : ∀ (es : List (Ipv6Addr × String)) (seen : List String),
    (collectSuffixes seen es).2 = es
  | [], _ => rfl
  | (suffix, domain) :: es, seen => by
    unfold collectSuffixes
    split <;> simp only [collectSuffixes_snd es]

/-- One host is one entry of a write-through pass. -/
theorem updateHost_eq_put (u : DnsUpdater σ) (newAddr : Ipv6Addr) (domain : String) (s : Daemon σ) :
    updateHost u newAddr domain s = put u.setRecord domain newAddr s := by
  simp only [updateHost, put]
  congr 1
  rcases u.setRecord domain newAddr s.store with ⟨_ | _, w⟩ <;> rfl

/-- The number of entries whose write failed. -/
def failures (vs : List (HostVisit σ)) : Nat := vs.countP fun x => x.report.answer == some false

/-- **The host loop is a pass** that counts its failures. -/
theorem updateHosts_eq_pass (u : DnsUpdater σ) (p : Ipv6Addr) : ∀ (es : List (Ipv6Addr × String)) (n : Nat)
    (s : Daemon σ), updateHosts u p es n s =
      ((pass u.setRecord (targets p es) s).1, n + failures (pass u.setRecord (targets p es) s).1,
        (pass u.setRecord (targets p es) s).2)
  | [], _, _ => rfl
  | (suffix, domain) :: es, n, s => by
    simp only [updateHosts, updateHosts_eq_pass u p es, updateHost_eq_put, targets, List.map_cons, pass_cons]
    refine Prod.ext rfl (Prod.ext ?_ rfl)
    cases (put u.setRecord domain (combine p suffix) s).1 <;> simp [failures, Report.answer]
    omega

section Lemmas

variable {u : DnsUpdater σ} {staticSuffixes : List (Ipv6Addr × String)} {discovered : Option (List HostEntry)}
  {p : Ipv6Addr} {s : Daemon σ}

/-- The writes that a cycle with prefix `p` is about. -/
def cycleTargets (p : Ipv6Addr) (staticSuffixes : List (Ipv6Addr × String)) (discovered : Option (List HostEntry)) :
    List (String × Ipv6Addr) :=
  targets p (allSuffixes staticSuffixes (discovered.getD []))

/-- A cycle that detects nothing does nothing. -/
theorem runUpdateCycle_error (e : Error) :
    runUpdateCycle u (.error e) staticSuffixes discovered s = ⟨[], [], 0, s⟩ := rfl

/-- The visits of a cycle are those of a pass. -/
theorem runUpdateCycle_visits : (runUpdateCycle u (.ok p) staticSuffixes discovered s).visits =
    (pass u.setRecord (cycleTargets p staticSuffixes discovered) s).1 := by
  simp only [runUpdateCycle, updateHosts_eq_pass, collectSuffixes_snd, cycleTargets]

/-- The state after a cycle is that after a pass. -/
theorem runUpdateCycle_state : (runUpdateCycle u (.ok p) staticSuffixes discovered s).state =
    (pass u.setRecord (cycleTargets p staticSuffixes discovered) s).2 := by
  simp only [runUpdateCycle, updateHosts_eq_pass, collectSuffixes_snd, cycleTargets]

/-- **A cycle makes the calls it reports**: of the updater, one after the other, and no others. -/
theorem runUpdateCycle_made (detected : Except Error Ipv6Addr) :
    Made u.setRecord s.store (runUpdateCycle u detected staticSuffixes discovered s).visits
      (runUpdateCycle u detected staticSuffixes discovered s).state.store := by
  cases detected with
  | error e => exact made_nil _ _
  | ok p =>
    rw [runUpdateCycle_visits, runUpdateCycle_state]
    exact pass_made _ _ s

end Lemmas

/-! ## Runs of cycles -/

/-- What a cycle is told from outside. -/
structure CycleInput where
  detected : Except Error Ipv6Addr
  discovered : Option (List HostEntry)

/-- Cycle after cycle. -/
def runCycles (u : DnsUpdater σ) (staticSuffixes : List (Ipv6Addr × String)) :
    List CycleInput → Daemon σ → List (CycleResult σ)
  | [], _ => []
  | i :: is, s =>
    let r := runUpdateCycle u i.detected staticSuffixes i.discovered s
    r :: runCycles u staticSuffixes is r.state

/-- The state that a run of cycles ends in. -/
def finalState (s : Daemon σ) : List (CycleResult σ) → Daemon σ
  | [] => s
  | r :: rs => finalState r.state rs

/-- A run makes the calls that its cycles report. -/
theorem runCycles_made (u : DnsUpdater σ) (staticSuffixes : List (Ipv6Addr × String)) :
    ∀ (is : List CycleInput) (s : Daemon σ),
    Made u.setRecord s.store ((runCycles u staticSuffixes is s).flatMap CycleResult.visits)
      (finalState s (runCycles u staticSuffixes is s)).store
  | [], _ => made_nil _ _
  | i :: is, _ => (runUpdateCycle_made i.detected).append (runCycles_made u staticSuffixes is _)

end DdnsIpv6

import DdnsIpv6.Cycle
import DdnsIpv6.Lib.WriteThrough.Isolation
import Mathlib.Data.List.Forall2

/-!
# Hosts do not disturb each other

What a run of cycles does at a domain is a local history (`runCycles_local`), and its values are the addresses that the
detected prefixes and the entries of that domain ask for (`SameSeen.values_eq`). So two runs with the same entries for a
domain and the same answers to its calls make the same calls for it (`runCycles_isolated`), whatever they do with all
other domains.
-/

namespace DdnsIpv6

open Lib Lib.WriteThrough

variable {σ σ' : Type*}

/-! ## One domain of a run -/

/-- The calls of a run for the domain `d`. -/
def callsFor (d : String) (rs : List (CycleResult σ)) : List (String × Ipv6Addr) :=
  (rs.flatMap fun r => calls r.visits).filter fun c => c.1 = d

/-- The outcomes of these calls: did they succeed? -/
def outcomesFor (d : String) (rs : List (CycleResult σ)) : List Bool :=
  ((rs.flatMap fun r => r.visits).filter fun x => x.key = d).filterMap fun x => x.report.answer

/-- The cycle inputs `i` and `i'` look the same from the domain `d`: one detection outcome, and the same entries for `d`
in the two host lists. -/
def SameSeen (d : String) (staticSuffixes staticSuffixes' : List (Ipv6Addr × String)) (i i' : CycleInput) : Prop :=
  i.detected = i'.detected ∧
    (allSuffixes staticSuffixes (i.discovered.getD [])).filter (fun e => e.2 = d) =
      (allSuffixes staticSuffixes' (i'.discovered.getD [])).filter fun e => e.2 = d

/-- The history of `d` over a run. -/
def domainHistory (d : String) (rs : List (CycleResult σ)) : List (Ipv6Addr × Option Bool) :=
  rs.flatMap fun r => history d r.visits

variable {d : String} {u : DnsUpdater σ} {u' : DnsUpdater σ'}
  {staticSuffixes staticSuffixes' : List (Ipv6Addr × String)}

/-- The entries of `d` in a list of targets. -/
theorem filter_targets (p : Ipv6Addr) (es : List (Ipv6Addr × String)) :
    (targets p es).filter (fun t => t.1 = d) = targets p (es.filter fun e => e.2 = d) := by
  rw [targets, List.filter_map]
  rfl

/-- One cycle is local at `d`. -/
theorem runUpdateCycle_local (i : CycleInput) (s : Daemon σ) :
    Local (s.cache d) (history d (runUpdateCycle u i.detected staticSuffixes i.discovered s).visits)
      ((runUpdateCycle u i.detected staticSuffixes i.discovered s).state.cache d) := by
  cases hd : i.detected with
  | error e =>
    rw [runUpdateCycle_error]
    exact .nil _
  | ok p =>
    rw [runUpdateCycle_visits, runUpdateCycle_state]
    exact pass_local u.setRecord d _ s

/-- **A run is local at every domain.** -/
theorem runCycles_local (d : String) (u : DnsUpdater σ) (staticSuffixes : List (Ipv6Addr × String)) :
    ∀ (is : List CycleInput) (s : Daemon σ), Local (s.cache d) (domainHistory d (runCycles u staticSuffixes is s))
      ((finalState s (runCycles u staticSuffixes is s)).cache d)
  | [], _ => .nil _
  | i :: is, s => (runUpdateCycle_local i s).append (runCycles_local d u staticSuffixes is _)

/-- Two cycles that look the same from `d` ask for the same addresses there. -/
theorem SameSeen.cycle_values {i i' : CycleInput} (h : SameSeen d staticSuffixes staticSuffixes' i i') (s : Daemon σ)
    (s' : Daemon σ') :
    (history d (runUpdateCycle u i.detected staticSuffixes i.discovered s).visits).map Prod.fst =
      (history d (runUpdateCycle u' i'.detected staticSuffixes' i'.discovered s').visits).map Prod.fst := by
  obtain ⟨hd, he⟩ := h
  rw [← hd]
  cases i.detected with
  | error e => rfl
  | ok p =>
    rw [runUpdateCycle_visits, runUpdateCycle_visits, history_values, history_values, cycleTargets, cycleTargets,
      filter_targets, filter_targets, he]

/-- Two runs that look the same from `d` ask for the same addresses there. -/
theorem SameSeen.values_eq {is is' : List CycleInput}
    (h : List.Forall₂ (SameSeen d staticSuffixes staticSuffixes') is is') (s : Daemon σ) (s' : Daemon σ') :
    (domainHistory d (runCycles u staticSuffixes is s)).map Prod.fst =
      (domainHistory d (runCycles u' staticSuffixes' is' s')).map Prod.fst := by
  induction h generalizing s s' with
  | nil => rfl
  | cons hi _ ih =>
    simp only [runCycles, domainHistory, List.flatMap_cons, List.map_append]
    rw [hi.cycle_values s s']
    exact congrArg _ (ih _ _)

/-- The calls for `d` are the values written in its history. -/
theorem callsFor_eq (rs : List (CycleResult σ)) :
    callsFor d rs = (written (domainHistory d rs)).map fun a => (d, a) := by
  induction rs with
  | nil => rfl
  | cons r rs ih =>
    have hr : (calls r.visits).filter (fun c => c.1 = d) = (written (history d r.visits)).map fun a => (d, a) := by
      rw [written_history, List.map_map]
      refine (List.map_id _).symm.trans (List.map_congr_left fun c hc => ?_)
      have hk : c.1 = d := by simpa using (List.mem_filter.1 hc).2
      exact Prod.ext hk rfl
    rw [callsFor, List.flatMap_cons, List.filter_append, ← callsFor, ih, hr, ← List.map_append]
    simp only [domainHistory, List.flatMap_cons, written, List.filter_append, List.map_append]

/-- The outcomes for `d` are the answers of its history. -/
theorem outcomesFor_eq (rs : List (CycleResult σ)) : outcomesFor d rs = answers (domainHistory d rs) := by
  induction rs with
  | nil => rfl
  | cons r rs ih =>
    rw [outcomesFor, List.flatMap_cons, List.filter_append, List.filterMap_append, ← outcomesFor, ih]
    simp only [domainHistory, List.flatMap_cons, answers, List.filterMap_append, history, List.filterMap_map]
    rfl

/-! ## Two runs -/

/-- **Failure isolation.** Two runs of cycles that look the same from `d`, start with the same entry for `d` and get the
same answers to their calls for `d` make the same calls for `d` and end with the same entry for it. The calls and
answers of each run are those of its updater: made one after the other they lead to the world it leaves. -/
theorem runCycles_isolated {is is' : List CycleInput} {s : Daemon σ} {s' : Daemon σ'}
    (hseen : List.Forall₂ (SameSeen d staticSuffixes staticSuffixes') is is') (hcache : s.cache d = s'.cache d)
    (houtcomes : ∀ (k : Nat) (a b : Bool), (outcomesFor d (runCycles u staticSuffixes is s))[k]? = some a →
      (outcomesFor d (runCycles u' staticSuffixes' is' s'))[k]? = some b → a = b) :
    callsFor d (runCycles u staticSuffixes is s) = callsFor d (runCycles u' staticSuffixes' is' s') ∧
      (finalState s (runCycles u staticSuffixes is s)).cache d =
        (finalState s' (runCycles u' staticSuffixes' is' s')).cache d ∧
      Made u.setRecord s.store ((runCycles u staticSuffixes is s).flatMap CycleResult.visits)
        (finalState s (runCycles u staticSuffixes is s)).store ∧
      Made u'.setRecord s'.store ((runCycles u' staticSuffixes' is' s').flatMap CycleResult.visits)
        (finalState s' (runCycles u' staticSuffixes' is' s')).store := by
  have hl := runCycles_local d u staticSuffixes is s
  have hl' := runCycles_local d u' staticSuffixes' is' s'
  rw [hcache] at hl
  have ha : SameAnswers (domainHistory d (runCycles u staticSuffixes is s))
      (domainHistory d (runCycles u' staticSuffixes' is' s')) := by
    intro k a b h₁ h₂
    rw [← outcomesFor_eq] at h₁ h₂
    exact houtcomes k a b h₁ h₂
  obtain ⟨hh, hc⟩ := hl.unique hl' (SameSeen.values_eq hseen s s') ha
  exact ⟨by rw [callsFor_eq, callsFor_eq, hh], hc, runCycles_made _ _ _ _, runCycles_made _ _ _ _⟩

/-- An updater that refuses one domain. The world is the list of the calls made, the last one first. -/
def refusingUpdater (refused : String) : DnsUpdater (List (String × Ipv6Addr)) where
  setRecord domain addr w :=
    (if domain = refused then .error (.update domain (.client "refused")) else .ok (), (domain, addr) :: w)
  getRecord _ w := (.ok none, w)

/-- A host alone, and the same host after one whose calls fail: the updaters get one call for it, in the first cycle. -/
theorem runCycles_isolated_nas :
    let i : CycleInput := ⟨.ok ⟨0x2001, 0xdb8, 1, 2, 0, 0, 0, 0⟩, none⟩
    let nas := (⟨0, 0, 0, 0, 0, 0, 0, 1⟩, "nas.example.com")
    let git := (⟨0, 0, 0, 0, 0, 0, 0, 2⟩, "git.example.com")
    let rs := runCycles (refusingUpdater "") [nas] [i, i] ⟨fun _ => none, []⟩
    let rs' := runCycles (refusingUpdater "git.example.com") [git, nas] [i, i] ⟨fun _ => none, []⟩
    let t := finalState ⟨fun _ => none, []⟩ rs
    let t' := finalState ⟨fun _ => none, []⟩ rs'
    t.store = [("nas.example.com", ⟨0x2001, 0xdb8, 1, 2, 0, 0, 0, 1⟩)] ∧
      t'.store = [("git.example.com", ⟨0x2001, 0xdb8, 1, 2, 0, 0, 0, 2⟩),
        ("nas.example.com", ⟨0x2001, 0xdb8, 1, 2, 0, 0, 0, 1⟩),
        ("git.example.com", ⟨0x2001, 0xdb8, 1, 2, 0, 0, 0, 2⟩)] ∧
      t.cache "nas.example.com" = t'.cache "nas.example.com" := by
  intro i nas git rs rs' t t'
  obtain ⟨_, hcache, hmade, hmade'⟩ : callsFor "nas.example.com" rs = callsFor "nas.example.com" rs' ∧
      t.cache "nas.example.com" = t'.cache "nas.example.com" ∧
      Made (refusingUpdater "").setRecord [] (rs.flatMap CycleResult.visits) t.store ∧
      Made (refusingUpdater "git.example.com").setRecord [] (rs'.flatMap CycleResult.visits) t'.store :=
    runCycles_isolated (.cons ⟨rfl, by decide⟩ (.cons ⟨rfl, by decide⟩ .nil)) rfl fun k _ _ h h' =>
      Option.some.inj (h.symm.trans ((congrArg (fun bs : List Bool => bs[k]?) (by decide)).trans h'))
  exact ⟨(congrArg Prod.snd hmade).symm.trans (by decide), (congrArg Prod.snd hmade').symm.trans (by decide), hcache⟩

end DdnsIpv6

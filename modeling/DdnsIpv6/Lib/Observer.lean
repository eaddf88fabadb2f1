import DdnsIpv6.Lib.Run

/-!
# Observers

An observer writes notes about the steps of a system and takes no part in them: `observed step note` is the system with
its observer, `note s e t` being what the step `e` from `s` to `t` does to the notes. The observer neither disturbs a
run nor misses one (`run_of_observed`, `run_observed`).
-/

namespace Lib

variable {σ ε η : Type*} {step : σ → ε → Option σ} {note : σ → ε → σ → η → η} {s t : σ} {m : η} {w w' : σ × η} {e : ε}
  {es : List ε}

/-- A step of the system, with what the observer writes down. -/
def observed (step : σ → ε → Option σ) (note : σ → ε → σ → η → η) (w : σ × η) (e : ε) : Option (σ × η) :=
  (step w.1 e).map fun t => (t, note w.1 e t w.2)

theorem observed_eq_some : observed step note w e = some w' ↔
    ∃ t, step w.1 e = some t ∧ (t, note w.1 e t w.2) = w' := by
  simp only [observed, Option.map_eq_some_iff]

/-- Without the observer the run is the same. -/
theorem run_of_observed : ∀ {es : List ε} {w : σ × η}, run (observed step note) w es = some w' →
    run step w.1 es = some w'.1
  | [], _, h => by
    cases h
    rfl
  | e :: es, w, h => by
    obtain ⟨v, hv, hr⟩ := run_cons h
    obtain ⟨t, ht, rfl⟩ := observed_eq_some.1 hv
    rw [run, ht, Option.bind_some]
    exact run_of_observed hr

/-- Every run can be observed. -/
theorem run_observed : ∀ {es : List ε} {s : σ} {m : η}, run step s es = some t →
    ∃ n, run (observed step note) (s, m) es = some (t, n)
  | [], _, m, h => by
    cases h
    exact ⟨m, rfl⟩
  | e :: es, s, m, h => by
    obtain ⟨u, hu, hr⟩ := run_cons h
    obtain ⟨n, hn⟩ : ∃ n, run (observed step note) (u, note s e u m) es = some (t, n) := run_observed hr
    refine ⟨n, ?_⟩
    rw [run, observed_eq_some.2 ⟨u, hu, rfl⟩, Option.bind_some]
    exact hn

/-- The notes of an observer who heeds the events alone. -/
theorem notes_eq_foldl {f : η → ε → η} : ∀ {es : List ε} {s : σ} {m n : η},
    run (observed step fun _ e _ m => f m e) (s, m) es = some (t, n) → n = es.foldl f m
  | [], _, _, _, h => by
    cases h
    rfl
  | e :: es, _, _, _, h => by
    obtain ⟨w, hw, hr⟩ := run_cons h
    obtain ⟨u, -, rfl⟩ := observed_eq_some.1 hw
    rw [List.foldl_cons]
    exact notes_eq_foldl hr

/-- Two observers at once. -/
def bothNotes {θ : Type*} (note : σ → ε → σ → η → η) (note' : σ → ε → σ → θ → θ) : σ → ε → σ → η × θ → η × θ :=
  fun s e t m => (note s e t m.1, note' s e t m.2)

/-- A second observer can look on. -/
theorem run_bothNotes {θ : Type*} {note' : σ → ε → σ → θ → θ} : ∀ {es : List ε} {s : σ} {m n : η} (m' : θ),
    run (observed step note) (s, m) es = some (t, n) → ∃ n',
      run (observed step (bothNotes note note')) (s, (m, m')) es = some (t, (n, n')) ∧
      run (observed step note') (s, m') es = some (t, n')
  | [], _, _, _, m', h => by
    cases h
    exact ⟨m', rfl, rfl⟩
  | e :: es, s, m, n, m', h => by
    obtain ⟨w, hw, hr⟩ := run_cons h
    obtain ⟨u, hu, rfl⟩ := observed_eq_some.1 hw
    obtain ⟨n', hboth, hr'⟩ : ∃ n', run (observed step (bothNotes note note')) (u, (note s e u m, note' s e u m')) es =
        some (t, (n, n')) ∧ run (observed step note') (u, note' s e u m') es = some (t, n') :=
      run_bothNotes (note' s e u m') hr
    have hstep : observed step (bothNotes note note') (s, (m, m')) e = some (u, (note s e u m, note' s e u m')) :=
      observed_eq_some.2 ⟨u, hu, rfl⟩
    have hstep' : observed step note' (s, m') e = some (u, note' s e u m') := observed_eq_some.2 ⟨u, hu, rfl⟩
    refine ⟨n', ?_, ?_⟩
    · rw [run, hstep, Option.bind_some]
      exact hboth
    · rw [run, hstep', Option.bind_some]
      exact hr'

/-- A condition on the steps of a run is one on the steps of the observed run. -/
theorem along_observed {P : σ → ε → Prop} : ∀ {es : List ε} {w : σ × η}, Along step P w.1 es →
    Along (observed step note) (fun w e => P w.1 e) w es
  | [], _, _ => trivial
  | e :: es, w, h => by
    refine ⟨h.1, fun v hv => ?_⟩
    obtain ⟨t, ht, rfl⟩ := observed_eq_some.1 hv
    exact along_observed (h.2 t ht)

/-- And the other way round. -/
theorem along_of_observed {P : σ → ε → Prop} : ∀ {es : List ε} {w : σ × η},
    Along (observed step note) (fun w e => P w.1 e) w es → Along step P w.1 es
  | [], _, _ => trivial
  | e :: es, w, h => by
    refine ⟨h.1, fun t ht => ?_⟩
    have hobs : observed step note w e = some (t, note w.1 e t w.2) := observed_eq_some.2 ⟨t, ht, rfl⟩
    have hrest := along_of_observed (h.2 _ hobs)
    exact hrest

/-- **Invariants of an observed system**: what every step meeting `P` keeps of the state and the notes, a run whose
steps all meet `P` keeps. -/
theorem observed_inv_along {P : σ → ε → Prop} {I : σ → η → Prop}
    (hstep : ∀ s m e t, I s m → P s e → step s e = some t → I t (note s e t m)) (hi : I s m) (ha : Along step P s es)
    {n : η} (hr : run (observed step note) (s, m) es = some (t, n)) : I t n := by
  refine run_inv_along (P := fun w e => P w.1 e) (I := fun w : σ × η => I w.1 w.2) (fun w e w' hw hp h => ?_) hi
    (along_observed ha) hr
  obtain ⟨u, hu, rfl⟩ := observed_eq_some.1 h
  exact hstep w.1 w.2 e u hw hp hu

/-- What every step keeps of the state and the notes, every run keeps. -/
theorem observed_inv {I : σ → η → Prop} (hstep : ∀ s m e t, I s m → step s e = some t → I t (note s e t m))
    (hi : I s m) {n : η} (hr : run (observed step note) (s, m) es = some (t, n)) : I t n :=
  observed_inv_along (P := fun _ _ => True) (fun s m e t hs _ he => hstep s m e t hs he) hi along_true hr

end Lib

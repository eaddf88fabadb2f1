import Mathlib.Data.List.Basic

/-!
# Runs of a partial step function

A system is a step function `σ → ε → Option σ`: `none` says that the event is not enabled. `run` is the state after a
list of events, `Along P` says that every step of the list meets the condition `P` on the state before it and the
event. The induction over runs is done once, here: `run_inv` for an invariant that every step keeps, `run_inv_along`
for one that only the steps meeting `P` keep.
-/

namespace Lib

variable {σ ε : Type*} {step : σ → ε → Option σ} {s t u : σ} {es fs : List ε}

/-- The state after a list of events, if each of them is enabled in its turn. -/
def run (step : σ → ε → Option σ) : σ → List ε → Option σ
  | s, [] => some s
  | s, e :: es => (step s e).bind fun t => run step t es

/-- Every step of the run from `s` along `es` meets `P`. -/
def Along (step : σ → ε → Option σ) (P : σ → ε → Prop) : σ → List ε → Prop
  | _, [] => True
  | s, e :: es => P s e ∧ ∀ t, step s e = some t → Along step P t es

/-- A condition that can be decided can be decided along a run. -/
instance Along.decidable {P : σ → ε → Prop} [∀ s e, Decidable (P s e)] :
    ∀ (s : σ) (es : List ε), Decidable (Along step P s es)
  | _, [] => isTrue trivial
  | s, e :: es =>
    match h : step s e with
    | none => decidable_of_iff (P s e) ⟨fun hp => ⟨hp, fun t ht => by rw [h] at ht; cases ht⟩, fun ha => ha.1⟩
    | some t =>
      have : Decidable (Along step P t es) := Along.decidable t es
      decidable_of_iff (P s e ∧ Along step P t es)
        ⟨fun hp => ⟨hp.1, fun t' ht => by rw [h] at ht; cases ht; exact hp.2⟩, fun ha => ⟨ha.1, ha.2 t h⟩⟩

/-- The first step of a run. -/
theorem run_cons {e : ε} (h : run step s (e :: es) = some t) : ∃ m, step s e = some m ∧ run step m es = some t := by
  simpa only [run, Option.bind_eq_some_iff] using h

/-- Runs compose. -/
theorem run_append : ∀ {es : List ε} {s : σ}, run step s es = some t → run step t fs = some u →
    run step s (es ++ fs) = some u
  | [], s, h, h' => by
    cases h
    exact h'
  | e :: es, s, h, h' => by
    obtain ⟨m, hm, hr⟩ := run_cons h
    simp only [List.cons_append, run, hm, Option.bind_some]
    exact run_append hr h'

/-- A run goes through the state after its first events. -/
theorem run_split : ∀ {es : List ε} {s : σ}, run step s (es ++ fs) = some u →
    ∃ t, run step s es = some t ∧ run step t fs = some u
  | [], s, h => ⟨s, rfl, h⟩
  | e :: es, s, h => by
    obtain ⟨m, hm, hr⟩ := run_cons h
    obtain ⟨t, ht, hf⟩ := run_split hr
    exact ⟨t, by rw [run, hm, Option.bind_some, ht], hf⟩

/-- **Invariants of runs**: what every step meeting `P` keeps, a run whose steps all meet `P` keeps. -/
theorem run_inv_along {P : σ → ε → Prop} {I : σ → Prop}
    (hstep : ∀ s e t, I s → P s e → step s e = some t → I t) :
    ∀ {es : List ε} {s : σ}, I s → Along step P s es → run step s es = some t → I t
  | [], s, hi, _, hr => by
    cases hr
    exact hi
  | e :: es, s, hi, ha, hr => by
    obtain ⟨m, hm, hr⟩ := run_cons hr
    exact run_inv_along hstep (hstep s e m hi ha.1 hm) (ha.2 m hm) hr

/-- A weaker condition along a run. -/
theorem Along.imp {P Q : σ → ε → Prop} (h : ∀ s e, P s e → Q s e) : ∀ {es : List ε} {s : σ}, Along step P s es →
    Along step Q s es
  | [], _, _ => trivial
  | e :: _, s, ha => ⟨h s e ha.1, fun t ht => Along.imp h (ha.2 t ht)⟩

/-- The condition that every step meets holds along every run. -/
theorem along_true : ∀ {es : List ε} {s : σ}, Along step (fun _ _ => True) s es
  | [], _ => trivial
  | _ :: _, _ => ⟨trivial, fun _ _ => along_true⟩

/-- A condition on the events alone. -/
theorem along_of_forall {Q : ε → Prop} : ∀ {es : List ε} {s : σ}, (∀ e ∈ es, Q e) → Along step (fun _ e => Q e) s es
  | [], _, _ => trivial
  | e :: _, _, h => ⟨h e List.mem_cons_self, fun _ _ => along_of_forall fun f hf => h f (List.mem_cons_of_mem e hf)⟩

/-- Two conditions along a run. -/
theorem Along.and {P Q : σ → ε → Prop} : ∀ {es : List ε} {s : σ}, Along step P s es → Along step Q s es →
    Along step (fun s e => P s e ∧ Q s e) s es
  | [], _, _, _ => trivial
  | _ :: _, _, hp, hq => ⟨⟨hp.1, hq.1⟩, fun t ht => (hp.2 t ht).and (hq.2 t ht)⟩

/-- What an invariant lets the steps meet. -/
theorem along_of_inv {P Q : σ → ε → Prop} {I : σ → Prop}
    (hstep : ∀ s e t, I s → P s e → step s e = some t → I t ∧ Q s e) :
    ∀ {es : List ε} {s : σ}, I s → Along step P s es → run step s es = some t → Along step Q s es
  | [], _, _, _, _ => trivial
  | e :: es, s, hi, ha, hr => by
    obtain ⟨m, hm, hr⟩ := run_cons hr
    obtain ⟨hi', hq⟩ := hstep s e m hi ha.1 hm
    refine ⟨hq, fun t ht => ?_⟩
    cases hm.symm.trans ht
    exact along_of_inv hstep hi' (ha.2 m hm) hr

/-- **Simulation of runs**: if every step of one system is one of the other, and the relation is kept, then so is every
run. -/
theorem run_sim {τ : Type*} {step' : τ → ε → Option τ} {R : σ → τ → Prop}
    (hstep : ∀ s s' e t, R s s' → step s e = some t → ∃ t', step' s' e = some t' ∧ R t t') :
    ∀ {es : List ε} {s : σ} {s' : τ}, R s s' → run step s es = some t → ∃ t', run step' s' es = some t' ∧ R t t'
  | [], _, s', h, hr => by
    cases hr
    exact ⟨s', rfl, h⟩
  | e :: es, s, s', h, hr => by
    obtain ⟨m, hm, hr⟩ := run_cons hr
    obtain ⟨m', hm', h⟩ := hstep s s' e m h hm
    obtain ⟨t', hr', ht⟩ := run_sim hstep h hr
    exact ⟨t', by rw [run, hm', Option.bind_some, hr'], ht⟩

/-- What every step keeps, every run keeps. -/
theorem run_inv {I : σ → Prop} (hstep : ∀ s e t, I s → step s e = some t → I t) (hi : I s)
    (hr : run step s es = some t) : I t :=
  run_inv_along (P := fun _ _ => True) (fun s e t hs _ he => hstep s e t hs he) hi along_true hr

end Lib

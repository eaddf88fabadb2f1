import DdnsIpv6.Lib.Observer

/-!
# Restarts

A system that is started again and again. A life runs it from a state that is made of what the life before has left
behind, and ends after any of its steps. `live` is one life as a step from one remainder to the next, so that
`run (live ..)` is any number of lives; what every step keeps, all lives keep (`lives_inv`).
-/

namespace Lib

variable {κ π σ ε : Type*}

/-- What the system is set up with, and its events from start to end. -/
structure Life (κ ε : Type*) where
  config : κ
  events : List ε

/-- One life: `born` makes the first state, and `left` is what stays behind of the last one. -/
def live (step : κ → σ → ε → Option σ) (born : π → σ) (left : σ → π) (p : π) (l : Life κ ε) : Option π :=
  (run (step l.config) (born p) l.events).map left

/-- Every step of the life that follows on `p` meets `P`. -/
def AlongLife (step : κ → σ → ε → Option σ) (born : π → σ) (P : σ → ε → Prop) (p : π) (l : Life κ ε) : Prop :=
  Along (step l.config) P (born p) l.events

instance {step : κ → σ → ε → Option σ} {born : π → σ} {P : σ → ε → Prop} [∀ s e, Decidable (P s e)] (p : π)
    (l : Life κ ε) : Decidable (AlongLife step born P p l) :=
  inferInstanceAs (Decidable (Along _ _ _ _))

variable {step : κ → σ → ε → Option σ} {born : π → σ} {left : σ → π} {P : σ → ε → Prop} {I : σ → Prop}
  {J : π → Prop} {p q : π}

/-- One life keeps what its birth, its steps and its end keep. -/
theorem live_inv (hborn : ∀ p, J p → I (born p)) (hstep : ∀ k s e t, I s → P s e → step k s e = some t → I t)
    (hleft : ∀ s, I s → J (left s)) {l : Life κ ε} (hj : J p) (ha : AlongLife step born P p l)
    (h : live step born left p l = some q) : J q := by
  obtain ⟨t, hr, rfl⟩ := Option.map_eq_some_iff.1 h
  exact hleft t (run_inv_along (hstep l.config) (hborn p hj) ha hr)

/-- **Invariants of lives**: what every birth, every step meeting `P` and every end keep, any number of lives keep whose
steps all meet `P`. -/
theorem lives_inv (hborn : ∀ p, J p → I (born p)) (hstep : ∀ k s e t, I s → P s e → step k s e = some t → I t)
    (hleft : ∀ s, I s → J (left s)) {ls : List (Life κ ε)} (hj : J p)
    (ha : Along (live step born left) (AlongLife step born P) p ls) (hr : run (live step born left) p ls = some q) :
    J q :=
  run_inv_along (fun _ _ _ hj ha h => live_inv hborn hstep hleft hj ha h) hj ha hr

end Lib

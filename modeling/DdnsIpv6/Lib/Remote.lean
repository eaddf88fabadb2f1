import Mathlib.Data.List.Basic

/-!
# Calls to a service that may fail

A service carries out a request on its state and answers. A call may go wrong in any way (`Outcome`): the request is
carried out or not, and the caller hears an arbitrary answer, except that an answer that reports success is honest: the
request was carried out, and the answer says the same as the service's. A remote service comes with what happens to each
of the calls to come; those beyond the end of the list go well.

`send_ok` is about an answer that reports success, `send_state` and `send_inv` are about every call.
-/

namespace Lib

variable {σ ρ α : Type*}

/-- A service for requests `ρ`, with the answers that report success and the answers that say the same. -/
structure Service (σ ρ α : Type*) where
  serve : ρ → σ → α × σ
  ok : ρ → α → Prop
  same : ρ → α → α → Prop
  same_refl : ∀ r a, same r a a

/-- What happens to a call: `heard` gives what the caller hears for the service's answer. -/
structure Outcome (S : Service σ ρ α) where
  applied : Bool
  heard : ρ → α → α
  honest : ∀ r a, S.ok r (heard r a) → applied = true ∧ S.same r a (heard r a)

/-- A call that goes well. -/
def Outcome.good (S : Service σ ρ α) : Outcome S := ⟨true, fun _ a => a, fun r a _ => ⟨rfl, S.same_refl r a⟩⟩

/-- The state of a service, and what happens to the calls to come. -/
structure Remote (S : Service σ ρ α) where
  state : σ
  outcomes : List (Outcome S)

namespace Remote

variable {S : Service σ ρ α}

/-- One call. -/
def send (w : Remote S) (r : ρ) : α × Remote S :=
  let o := w.outcomes.headD (.good S)
  let (a, s) := S.serve r w.state
  (o.heard r a, ⟨if o.applied then s else w.state, w.outcomes.tail⟩)

/-- **An answer that reports success** says the same as the service's, which carried out the request. -/
theorem send_ok (w : Remote S) (r : ρ) (h : S.ok r (w.send r).1) :
    S.same r (S.serve r w.state).1 (w.send r).1 ∧ (w.send r).2.state = (S.serve r w.state).2 := by
  obtain ⟨happlied, hsame⟩ := (w.outcomes.headD (.good S)).honest r _ h
  exact ⟨hsame, if_pos happlied⟩

/-- Whatever is heard of it, a request was carried out or was not. -/
theorem send_state (w : Remote S) (r : ρ) :
    (w.send r).2.state = w.state ∨ (w.send r).2.state = (S.serve r w.state).2 := by
  cases ho : (w.outcomes.headD (.good S)).applied with
  | false => exact Or.inl (if_neg (by rw [ho]; exact Bool.false_ne_true))
  | true => exact Or.inr (if_pos ho)

/-- A call keeps what the request keeps. -/
theorem send_inv {w : Remote S} {r : ρ} {I : σ → Prop} (hserve : ∀ s, I s → I (S.serve r s).2) (hi : I w.state) :
    I (w.send r).2.state := by
  rcases send_state w r with hstate | hstate <;> rw [hstate]
  · exact hi
  · exact hserve _ hi

/-- A call that goes well. -/
theorem send_good (s : σ) (r : ρ) : (⟨s, []⟩ : Remote S).send r = ((S.serve r s).1, ⟨(S.serve r s).2, []⟩) := rfl

end Remote

end Lib

import Mathlib.Data.List.Basic

/-!
# Computations that report what they evaluate

A `Traced ε α` is a computation that reports events `ε` on its way to a result, and has no result if it panics. Its
result alone is a computation in `Option` (`result_bind`). `Ensures P x Q` says that all events of `x` satisfy `P` and
that it has a result, which satisfies `Q`; `Reads` says of a computation with an input that it depends on nothing but
what its events read of the input. The rules of both follow the way a computation is put together.
-/

namespace Lib

universe u v

/-- The events of a computation, and its result unless it panics. -/
structure Traced (ε : Type u) (α : Type v) where
  events : List ε
  result : Option α

namespace Traced

variable {ε : Type u} {α β : Type v} {P P' : ε → Prop} {Q Q' : α → Prop} {x : Traced ε α}

@[ext] theorem ext {x y : Traced ε α} (he : x.events = y.events) (hr : x.result = y.result) : x = y := by
  cases x
  cases y
  cases he
  cases hr
  rfl

instance : Monad (Traced ε) where
  pure a := ⟨[], some a⟩
  bind x f := ⟨x.events ++ (x.result.elim [] fun a => (f a).events), x.result.bind fun a => (f a).result⟩

/-- Report `e`, and go on with the value if there is one. -/
def attempt (e : ε) (r : Option α) : Traced ε α := ⟨[e], r⟩

/-- Report `e`. -/
def emit (e : ε) : Traced ε PUnit := attempt e (some ⟨⟩)

@[simp] theorem events_pure (a : α) : (pure a : Traced ε α).events = [] := rfl

@[simp] theorem result_pure (a : α) : (pure a : Traced ε α).result = some a := rfl

@[simp] theorem events_bind (x : Traced ε α) (f : α → Traced ε β) :
    (x >>= f).events = x.events ++ (x.result.elim [] fun a => (f a).events) := rfl

@[simp] theorem result_bind (x : Traced ε α) (f : α → Traced ε β) :
    (x >>= f).result = x.result.bind fun a => (f a).result := rfl

@[simp] theorem result_attempt (e : ε) (r : Option α) : (attempt e r).result = r := rfl

@[simp] theorem result_emit (e : ε) : (emit e : Traced ε PUnit).result = some ⟨⟩ := rfl

instance : LawfulMonad (Traced ε) := LawfulMonad.mk' (Traced ε)
  (fun x => ext (by cases h : x.result <;> simp [Functor.map, h]) (by cases h : x.result <;> simp [Functor.map, h]))
  (fun a f => ext (by simp) (by simp))
  (fun x f g => ext (by cases h : x.result <;> simp [h, List.append_assoc]) (by cases h : x.result <;> simp [h]))

/-- The result of a loop is the loop over the results. -/
theorem result_mapM {γ : Type*} (f : γ → Traced ε α) (l : List γ) :
    (l.mapM f).result = l.mapM fun c => (f c).result := by
  induction l with
  | nil => rfl
  | cons c l ih =>
    rw [List.mapM_cons, List.mapM_cons, result_bind]
    simp only [result_bind, result_pure, ih, Option.bind_eq_bind, Option.pure_def]

/-! ## Rules -/

/-- All events satisfy `P`, and there is a result, which satisfies `Q`. -/
def Ensures (P : ε → Prop) (x : Traced ε α) (Q : α → Prop) : Prop :=
  (∀ e ∈ x.events, P e) ∧ ∃ a, x.result = some a ∧ Q a

theorem ensures_pure {a : α} (h : Q a) : Ensures P (pure a) Q :=
  ⟨fun _ he => absurd he List.not_mem_nil, a, rfl, h⟩

theorem ensures_attempt {e : ε} {a : α} (he : P e) (h : Q a) : Ensures P (attempt e (some a)) Q :=
  ⟨fun _ hm => List.mem_singleton.1 hm ▸ he, a, rfl, h⟩

theorem ensures_emit {e : ε} (he : P e) : Ensures P (emit e : Traced ε PUnit) fun _ => True :=
  ensures_attempt he trivial

/-- **The rule of composition.** -/
theorem ensures_bind {f : α → Traced ε β} {R : β → Prop} (hx : Ensures P x Q) (hf : ∀ a, Q a → Ensures P (f a) R) :
    Ensures P (x >>= f) R := by
  obtain ⟨hevents, a, hr, hq⟩ := hx
  obtain ⟨hevents', b, hr', hrb⟩ := hf a hq
  refine ⟨fun e he => ?_, b, by rw [result_bind, hr, Option.bind_some, hr'], hrb⟩
  rw [events_bind, hr, Option.elim_some, List.mem_append] at he
  exact he.elim (hevents e) (hevents' e)

theorem ensures_mapM {γ : Type*} {f : γ → Traced ε α} {l : List γ} (h : ∀ c ∈ l, Ensures P (f c) fun _ => True) :
    Ensures P (l.mapM f) fun _ => True := by
  induction l with
  | nil => exact ensures_pure trivial
  | cons c l ih =>
    rw [List.forall_mem_cons] at h
    rw [List.mapM_cons]
    exact ensures_bind h.1 fun a _ => ensures_bind (ih h.2) fun as _ => ensures_pure trivial

/-! ## What is read -/

section Reads

variable {D : Type*} {Same : D → D → Prop} {Agree : ε → D → D → Prop}

/-- Of two inputs that are the same in what is known of them beforehand, and that agree in what the events on the first
one read, the computation makes the same. -/
def Reads (Same : D → D → Prop) (Agree : ε → D → D → Prop) (x : D → Traced ε α) : Prop :=
  ∀ d d', Same d d' → (∀ e ∈ (x d).events, Agree e d d') → x d' = x d

theorem reads_of_same {x : D → Traced ε α} (h : ∀ d d', Same d d' → x d' = x d) : Reads Same Agree x :=
  fun d d' hs _ => h d d' hs

theorem reads_attempt {e : ε} {f : D → Option α} (h : ∀ d d', Same d d' → Agree e d d' → f d' = f d) :
    Reads Same Agree fun d => attempt e (f d) := by
  intro d d' hs ha
  have hf : f d' = f d := h d d' hs (ha e (List.mem_singleton_self e))
  simp only [hf]

/-- **The rule of composition.** -/
theorem reads_bind {x : D → Traced ε α} {f : D → α → Traced ε β} (hx : Reads Same Agree x)
    (hf : ∀ a, Reads Same Agree fun d => f d a) : Reads Same Agree fun d => x d >>= f d := by
  intro d d' hs ha
  simp only [events_bind, List.forall_mem_append] at ha
  have hxd : x d' = x d := hx d d' hs ha.1
  have hrest : ∀ a, (x d).result = some a → f d' a = f d a := by
    intro a hr
    refine hf a d d' hs ?_
    rw [hr] at ha
    exact ha.2
  refine ext ?_ ?_
  · simp only [events_bind, hxd]
    cases hr : (x d).result with
    | none => rfl
    | some a => simp only [Option.elim_some, hrest a hr]
  · simp only [result_bind, hxd]
    cases hr : (x d).result with
    | none => rfl
    | some a => simp only [Option.bind_some, hrest a hr]

theorem reads_ite {c : D → Prop} [∀ d, Decidable (c d)] (hc : ∀ d d', Same d d' → (c d' ↔ c d))
    {x y : D → Traced ε α} (hx : Reads Same Agree x) (hy : Reads Same Agree y) :
    Reads Same Agree fun d => if c d then x d else y d := by
  intro d d' hs ha
  by_cases h : c d
  · simp only [if_pos h] at ha
    simp only [if_pos h, if_pos ((hc d d' hs).2 h), hx d d' hs ha]
  · simp only [if_neg h] at ha
    simp only [if_neg h, if_neg (mt (hc d d' hs).1 h), hy d d' hs ha]

theorem reads_mapM {γ : Type*} {f : D → γ → Traced ε α} (h : ∀ c, Reads Same Agree fun d => f d c) (l : List γ) :
    Reads Same Agree fun d => l.mapM (f d) := by
  induction l with
  | nil => exact reads_of_same fun _ _ _ => rfl
  | cons c l ih =>
    simp only [List.mapM_cons]
    exact reads_bind (h c) fun a => reads_bind ih fun as => reads_of_same fun _ _ _ => rfl

end Reads

end Traced

end Lib

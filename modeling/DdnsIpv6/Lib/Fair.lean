import DdnsIpv6.Lib.Run
import Mathlib.Order.WellFounded

/-!
# Fair runs

A run that goes on forever is weakly fair to some events if one of them is taken whenever from some time on one of them
is always enabled. What is to happen does happen in such a run, if until then one of these events is always enabled, and
each of them brings it closer by a well-founded rank that no other step raises (`Fair.eventually`).

`InfiniteRun.loop` is the run that repeats some events forever; it is fair to what it takes, and to what it finds
disabled. `InfiniteRun.prepend` puts a finite run before it.
-/

namespace Lib

variable {σ ε : Type*} {step : σ → ε → Option σ}

/-- A run that goes on forever. -/
structure InfiniteRun (step : σ → ε → Option σ) where
  state : ℕ → σ
  event : ℕ → ε
  step_eq : ∀ n, step (state n) (event n) = some (state (n + 1))

/-- One of the events can be taken. -/
def Enabled (step : σ → ε → Option σ) (A : ε → Prop) (s : σ) : Prop := ∃ e, A e ∧ (step s e).isSome = true

namespace InfiniteRun

variable {r : InfiniteRun step} {A : ε → Prop}

/-- What every step keeps holds forever. -/
theorem inv {I : σ → Prop} (hstep : ∀ s e t, I s → step s e = some t → I t) (h : I (r.state 0)) : ∀ n, I (r.state n)
  | 0 => h
  | n + 1 => hstep _ _ _ (inv hstep h n) (r.step_eq n)

/-- The `n` events from `i` on. -/
def segment (r : InfiniteRun step) (i n : ℕ) : List ε := (List.range' i n).map r.event

/-- The first events. -/
def events (r : InfiniteRun step) (n : ℕ) : List ε := r.segment 0 n

theorem run_segment (r : InfiniteRun step) : ∀ n i, run step (r.state i) (r.segment i n) = some (r.state (i + n))
  | 0, _ => rfl
  | n + 1, i => by
    rw [segment, List.range'_succ, List.map_cons, run, r.step_eq i, Option.bind_some, Nat.add_comm n, ← Nat.add_assoc]
    exact run_segment r n (i + 1)

/-- Every state is reached by the events before it. -/
theorem run_events (r : InfiniteRun step) (n : ℕ) : run step (r.state 0) (r.events n) = some (r.state n) := by
  rw [events, run_segment, Nat.zero_add]

theorem along_segment {P : σ → ε → Prop} (h : ∀ n, P (r.state n) (r.event n)) :
    ∀ n i, Along step P (r.state i) (r.segment i n)
  | 0, _ => trivial
  | n + 1, i => by
    rw [segment, List.range'_succ, List.map_cons]
    refine ⟨h i, fun t ht => ?_⟩
    rw [r.step_eq i] at ht
    rw [← Option.some.inj ht]
    exact along_segment h n (i + 1)

/-- What every step meets, the first steps do. -/
theorem along_events {P : σ → ε → Prop} (h : ∀ n, P (r.state n) (r.event n)) (n : ℕ) :
    Along step P (r.state 0) (r.events n) :=
  along_segment h n 0

/-- The run of a part of the system. -/
def map {τ : Type*} {step' : τ → ε → Option τ} (f : σ → τ)
    (h : ∀ s e t, step s e = some t → step' (f s) e = some (f t)) (r : InfiniteRun step) : InfiniteRun step' where
  state n := f (r.state n)
  event := r.event
  step_eq n := h _ _ _ (r.step_eq n)

/-- Weak fairness to the events. -/
def Fair (r : InfiniteRun step) (A : ε → Prop) : Prop :=
  ∀ n, (∀ m, n ≤ m → Enabled step A (r.state m)) → ∃ m, n ≤ m ∧ A (r.event m)

/-- Strong fairness to the events: they are taken time and again if time and again one of them is enabled. -/
def StronglyFair (r : InfiniteRun step) (A : ε → Prop) : Prop :=
  (∀ n, ∃ m, n ≤ m ∧ Enabled step A (r.state m)) → ∀ n, ∃ m, n ≤ m ∧ A (r.event m)

theorem stronglyFair_of_disabled (h : ∀ n, ¬Enabled step A (r.state n)) : r.StronglyFair A := fun hoften =>
  (h _ (hoften 0).choose_spec.2).elim

/-- Fairness of a part, if what it can do the whole system can. -/
theorem Fair.map {τ : Type*} {step' : τ → ε → Option τ} {f : σ → τ}
    {h : ∀ s e t, step s e = some t → step' (f s) e = some (f t)} (hf : r.Fair A)
    (henabled : ∀ n, Enabled step' A (f (r.state n)) → Enabled step A (r.state n)) : (r.map f h).Fair A :=
  fun n hn => hf n fun m hm => henabled m (hn m hm)

/-- **Progress.** From `P` the goal `G` is reached, if until then one of the events is enabled, and each step keeps `P`
and does not raise the rank, which these events lower. -/
theorem Fair.eventually {α : Type*} [Preorder α] [WellFoundedLT α] (hf : r.Fair A) {P G : ℕ → Prop} (rank : ℕ → α)
    (henabled : ∀ n, P n → ¬G n → Enabled step A (r.state n))
    (hstep : ∀ n, P n → ¬G n →
      P (n + 1) ∧ rank (n + 1) ≤ rank n ∧ (A (r.event n) → rank (n + 1) < rank n))
    {n : ℕ} (hn : P n) : ∃ m, n ≤ m ∧ G m := by
  by_contra hnever
  have hG : ∀ m, n ≤ m → ¬G m := fun m hm hg => hnever ⟨m, hm, hg⟩
  have hP : ∀ m, n ≤ m → P m := fun m hm => by
    induction m, hm using Nat.le_induction with
    | base => exact hn
    | succ m hm ih => exact (hstep m ih (hG m hm)).1
  have hrank : ∀ m k, n ≤ m → m ≤ k → rank k ≤ rank m := fun m k hm hk => by
    induction k, hk using Nat.le_induction with
    | base => exact le_rfl
    | succ k hk ih => exact (hstep k (hP k (hm.trans hk)) (hG k (hm.trans hk))).2.1.trans ih
  -- no rank is the last one
  have hdescent : ∀ a : α, ∀ m, n ≤ m → rank m ≠ a := fun a => by
    induction a using WellFoundedLT.induction with
    | ind a ih =>
      rintro m hm rfl
      obtain ⟨k, hmk, hk⟩ := hf m fun k hk => henabled k (hP k (hm.trans hk)) (hG k (hm.trans hk))
      have hlower := (hstep k (hP k (hm.trans hmk)) (hG k (hm.trans hmk))).2.2 hk
      exact ih (rank (k + 1)) (hlower.trans_le (hrank m k hm hmk)) (k + 1) (hm.trans (Nat.le_succ_of_le hmk)) rfl
  exact hdescent (rank n) n le_rfl rfl

/-- What is pending, from some time on comes up no more and can be cleared by the events as long as it is pending, is
cleared for good. -/
theorem Fair.clears (hf : r.Fair A) {P : σ → Prop} {n : ℕ} (henabled : ∀ m, P (r.state m) → Enabled step A (r.state m))
    (hclear : ∀ m, A (r.event m) → ¬P (r.state (m + 1)))
    (hkept : ∀ m, n ≤ m → ¬P (r.state m) → ¬P (r.state (m + 1))) : ∃ m, n ≤ m ∧ ∀ k, m ≤ k → ¬P (r.state k) := by
  have hcleared : ∃ m, n ≤ m ∧ ¬P (r.state (m + 1)) := by
    by_cases hp : P (r.state n)
    · refine hf.eventually (P := fun m => n ≤ m ∧ P (r.state m)) (fun _ => (0 : ℕ)) (fun m hm _ => henabled m hm.2)
        (fun m hm hG => ?_) ⟨le_rfl, hp⟩
      exact ⟨⟨Nat.le_succ_of_le hm.1, not_not.1 hG⟩, le_rfl, fun ha => absurd (hclear m ha) hG⟩
    · exact ⟨n, le_rfl, hkept n le_rfl hp⟩
  obtain ⟨m, hm, hp⟩ := hcleared
  refine ⟨m + 1, Nat.le_succ_of_le hm, fun k hk => ?_⟩
  induction k, hk using Nat.le_induction with
  | base => exact hp
  | succ k hk ih => exact hkept k (hm.trans (Nat.le_of_succ_le hk)) ih

/-! ## Loops -/

/-- A run goes through each of its events. -/
theorem run_take {s v : σ} {es : List ε} {i : ℕ} (h : run step s es = some v) (hi : i < es.length) :
    ∃ t u, run step s (es.take i) = some t ∧ step t (es.get ⟨i, hi⟩) = some u ∧
      run step s (es.take (i + 1)) = some u := by
  rw [← List.take_append_drop i es] at h
  obtain ⟨t, ht, hrest⟩ := run_split h
  rw [List.drop_eq_getElem_cons hi] at hrest
  obtain ⟨u, hu, -⟩ := run_cons hrest
  refine ⟨t, u, ht, hu, ?_⟩
  rw [List.take_succ_eq_append_getElem hi]
  exact run_append ht (by rw [run, hu]; rfl)

/-- The condition of a run holds at each of its events. -/
theorem along_take {P : σ → ε → Prop} : ∀ {es : List ε} {s t : σ} {i : ℕ}, Along step P s es → (hi : i < es.length) →
    run step s (es.take i) = some t → P t (es.get ⟨i, hi⟩)
  | e :: es, s, t, 0, ha, _, ht => by
    cases ht
    exact ha.1
  | e :: es, s, t, i + 1, ha, hi, ht => by
    obtain ⟨m, hm, ht⟩ := run_cons ht
    exact along_take (ha.2 m hm) (Nat.lt_of_succ_lt_succ hi) ht

variable {s : σ} {body : List ε}

/-- The run that repeats `body`. -/
def loop (s : σ) (body : List ε) (hpos : 0 < body.length) (h : run step s body = some s) : InfiniteRun step where
  state n := (run step s (body.take (n % body.length))).getD s
  event n := body.get ⟨n % body.length, Nat.mod_lt n hpos⟩
  step_eq n := by
    have hlt : n % body.length < body.length := Nat.mod_lt n hpos
    obtain ⟨t, u, ht, hu, hnext⟩ := run_take h hlt
    rw [ht, Option.getD_some, hu, Option.some.injEq]
    rw [← Nat.mod_add_mod]
    rcases Nat.lt_or_eq_of_le (Nat.succ_le_of_lt hlt) with hin | hend
    · rw [Nat.mod_eq_of_lt hin, hnext, Option.getD_some]
    · -- the last event of the body leads back
      replace hend : n % body.length + 1 = body.length := hend
      rw [hend, List.take_length, h] at hnext
      rw [hend, Nat.mod_self, ← Option.some.inj hnext]
      rfl

variable {hpos : 0 < body.length} {h : run step s body = some s}

/-- Sooner or later the loop is at its start again. -/
theorem loop_returns {k : ℕ} (hk : 0 < k) (n : ℕ) : ∃ m, n ≤ m ∧ m % k = 0 :=
  ⟨n * k, Nat.le_mul_of_pos_right n hk, Nat.mul_mod_left n k⟩

/-- A loop is fair to the events that it takes. -/
theorem loop_fair {i : ℕ} (hi : i < body.length) (hA : A (body.get ⟨i, hi⟩)) : (loop s body hpos h).Fair A := by
  intro n _
  obtain ⟨m, hm, hzero⟩ := loop_returns hpos n
  refine ⟨m + i, Nat.le_add_right_of_le hm, ?_⟩
  have hindex : (m + i) % body.length = i := by rw [Nat.add_mod, hzero, Nat.zero_add, Nat.mod_mod, Nat.mod_eq_of_lt hi]
  simp only [loop, hindex]
  exact hA

/-- A loop is fair to events that are disabled at its start. -/
theorem loop_fair_of_disabled (hs : ¬Enabled step A s) : (loop s body hpos h).Fair A := by
  intro n hn
  obtain ⟨m, hm, hzero⟩ := loop_returns hpos n
  refine absurd (hn m hm) ?_
  simp only [loop, hzero, List.take_zero, run, Option.getD_some]
  exact hs

/-- What every step along the events of the loop meets. -/
theorem loop_forall {P : σ → ε → Prop} (hP : ∀ t, ∀ e ∈ body, P t e) (n : ℕ) :
    P ((loop s body hpos h).state n) ((loop s body hpos h).event n) :=
  hP _ _ (List.get_mem body _)

/-! ## Stems -/

variable {r : InfiniteRun step} {es : List ε}

/-- The run after a finite one. -/
def prepend (s : σ) (es : List ε) (r : InfiniteRun step) (h : run step s es = some (r.state 0)) : InfiniteRun step where
  state n := if n < es.length then (run step s (es.take n)).getD s else r.state (n - es.length)
  event n := if hn : n < es.length then es.get ⟨n, hn⟩ else r.event (n - es.length)
  step_eq n := by
    rcases Nat.lt_or_ge n es.length with hn | hn
    · obtain ⟨t, u, ht, hu, hnext⟩ := run_take h hn
      rw [if_pos hn, dif_pos hn, ht, Option.getD_some, hu, Option.some.injEq]
      rcases Nat.lt_or_eq_of_le (Nat.succ_le_of_lt hn) with hin | hend
      · rw [if_pos hin, hnext, Option.getD_some]
      · -- the last event leads to the run
        replace hend : n + 1 = es.length := hend
        rw [hend, List.take_length, h] at hnext
        rw [if_neg (Nat.not_lt.2 hend.ge), hend, Nat.sub_self]
        exact (Option.some.inj hnext).symm
    · rw [if_neg (Nat.not_lt.2 hn), dif_neg (Nat.not_lt.2 hn), if_neg (Nat.not_lt.2 (Nat.le_succ_of_le hn)),
        Nat.succ_sub hn]
      exact r.step_eq (n - es.length)

variable {h : run step s es = some (r.state 0)}

theorem prepend_add (n : ℕ) : (prepend s es r h).state (es.length + n) = r.state n ∧
    (prepend s es r h).event (es.length + n) = r.event n := by
  simp only [prepend, Nat.not_lt.2 (Nat.le_add_right es.length n), if_false, dif_neg, not_false_eq_true,
    Nat.add_sub_cancel_left, and_self]

/-- What comes first does not matter for fairness. -/
theorem Fair.prepend (hf : r.Fair A) : (prepend s es r h).Fair A := by
  intro n hn
  obtain ⟨m, hm, ha⟩ := hf n fun m hm => by
    rw [← (prepend_add (h := h) m).1]
    exact hn _ (hm.trans (Nat.le_add_left m es.length))
  refine ⟨es.length + m, hm.trans (Nat.le_add_left m es.length), ?_⟩
  rw [(prepend_add m).2]
  exact ha

/-- What every step of the run meets, every step after the finite one does. -/
theorem prepend_forall_from {P : σ → ε → Prop} (hr : ∀ n, P (r.state n) (r.event n)) (n : ℕ) (hn : es.length ≤ n) :
    P ((prepend s es r h).state n) ((prepend s es r h).event n) := by
  obtain ⟨m, rfl⟩ := Nat.exists_eq_add_of_le hn
  rw [(prepend_add m).1, (prepend_add m).2]
  exact hr m

/-- What every step of both runs meets. -/
theorem prepend_forall {P : σ → ε → Prop} (ha : Along step P s es) (hr : ∀ n, P (r.state n) (r.event n)) (n : ℕ) :
    P ((prepend s es r h).state n) ((prepend s es r h).event n) := by
  rcases Nat.lt_or_ge n es.length with hn | hn
  · obtain ⟨t, u, ht, hu, -⟩ := run_take h hn
    simp only [prepend, if_pos hn, dif_pos hn, ht, Option.getD_some]
    exact along_take ha hn ht
  · exact prepend_forall_from hr n hn

end InfiniteRun

end Lib

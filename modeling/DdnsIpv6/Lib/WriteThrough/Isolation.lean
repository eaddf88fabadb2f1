import DdnsIpv6.Lib.WriteThrough

/-!
# Passes seen from one key

What a pass does at a key `k` is a `Local` history: it starts at the cache entry of `k`, and each entry of `k` is
skipped, acknowledged or refused according to the cache entry at that moment. The history of a pass is local
(`pass_local`), histories compose (`Local.append`), and a history is determined by where it starts, the values it is
given and the answers to its writes (`Local.unique`). So nothing that happens at other keys can change it.
-/

namespace Lib.WriteThrough

variable {K V σ ε : Type*}

/-- The history of one key, as pairs of a value and the store's answer (`none` where the entry was skipped). -/
inductive Local : Option V → List (V × Option Bool) → Option V → Prop
  | nil (c : Option V) : Local c [] c
  | skip {v : V} {xs : List (V × Option Bool)} {c : Option V} :
      Local (some v) xs c → Local (some v) ((v, none) :: xs) c
  | written {v : V} {xs : List (V × Option Bool)} {c c' : Option V} :
      c ≠ some v → Local (some v) xs c' → Local c ((v, some true) :: xs) c'
  | failed {v : V} {xs : List (V × Option Bool)} {c c' : Option V} :
      c ≠ some v → Local c xs c' → Local c ((v, some false) :: xs) c'

/-- The answers to the writes of a history. -/
def answers (xs : List (V × Option Bool)) : List Bool := xs.filterMap Prod.snd

/-- The values written in a history. -/
def written (xs : List (V × Option Bool)) : List V := (xs.filter fun x => x.2.isSome).map Prod.fst

/-- Where both have an `i`-th answer, they are the same. -/
def SameAnswers (xs ys : List (V × Option Bool)) : Prop :=
  ∀ (i : Nat) (a b : Bool), (answers xs)[i]? = some a → (answers ys)[i]? = some b → a = b

/-- Histories compose. -/
theorem Local.append {xs ys : List (V × Option Bool)} {c d e : Option V} (h : Local c xs d) (h' : Local d ys e) :
    Local c (xs ++ ys) e := by
  induction h with
  | nil c => exact h'
  | skip _ ih => exact .skip (ih h')
  | written hne _ ih => exact .written hne (ih h')
  | failed hne _ ih => exact .failed hne (ih h')

theorem SameAnswers.tail {v v' : V} {a b : Bool} {xs ys : List (V × Option Bool)}
    (h : SameAnswers ((v, some a) :: xs) ((v', some b) :: ys)) : a = b ∧ SameAnswers xs ys :=
  ⟨h 0 a b rfl rfl, fun i x y hx hy => h (i + 1) x y hx hy⟩

/-- **A history is determined** by its start, its values and the answers. -/
theorem Local.unique {xs ys : List (V × Option Bool)} {c d e : Option V} (h : Local c xs d) (h' : Local c ys e)
    (hv : xs.map Prod.fst = ys.map Prod.fst) (ha : SameAnswers xs ys) : xs = ys ∧ d = e := by
  induction h generalizing ys with
  | nil c =>
    cases ys with
    | nil => cases h'; exact ⟨rfl, rfl⟩
    | cons => cases hv
  | @skip v xs c _ ih =>
    obtain _ | ⟨⟨v', a⟩, ys⟩ := ys
    · cases hv
    obtain ⟨rfl, hvs⟩ : v = v' ∧ xs.map Prod.fst = ys.map Prod.fst := List.cons.inj hv
    cases h' with
    | skip h' =>
      obtain ⟨rfl, rfl⟩ := ih h' hvs ha
      exact ⟨rfl, rfl⟩
    | written hne => exact absurd rfl hne
    | failed hne => exact absurd rfl hne
  | @written v xs c c' hne _ ih =>
    obtain _ | ⟨⟨v', a⟩, ys⟩ := ys
    · cases hv
    obtain ⟨rfl, hvs⟩ : v = v' ∧ xs.map Prod.fst = ys.map Prod.fst := List.cons.inj hv
    cases h' with
    | skip => exact absurd rfl hne
    | written _ h' =>
      obtain ⟨rfl, rfl⟩ := ih h' hvs ha.tail.2
      exact ⟨rfl, rfl⟩
    | failed => exact absurd ha.tail.1 (by decide)
  | @failed v xs c c' hne _ ih =>
    obtain _ | ⟨⟨v', a⟩, ys⟩ := ys
    · cases hv
    obtain ⟨rfl, hvs⟩ : v = v' ∧ xs.map Prod.fst = ys.map Prod.fst := List.cons.inj hv
    cases h' with
    | skip => exact absurd rfl hne
    | written => exact absurd ha.tail.1 (by decide)
    | failed _ h' =>
      obtain ⟨rfl, rfl⟩ := ih h' hvs ha.tail.2
      exact ⟨rfl, rfl⟩

section Pass

variable [DecidableEq K]

/-- What the visits did at the key `k`. -/
def history (k : K) (vs : List (Visit K V σ ε)) : List (V × Option Bool) :=
  (vs.filter fun x => x.key = k).map fun x => (x.value, x.report.answer)

theorem history_cons_self (x : Visit K V σ ε) (vs : List (Visit K V σ ε)) :
    history x.key (x :: vs) = (x.value, x.report.answer) :: history x.key vs := by
  simp [history]

theorem history_cons_ne {k : K} {x : Visit K V σ ε} (h : x.key ≠ k) (vs : List (Visit K V σ ε)) :
    history k (x :: vs) = history k vs := by
  simp [history, h]

/-- The values of a history are the values of the entries of its key. -/
theorem history_values [DecidableEq V] (w : Write K V σ ε) (k : K) (es : List (K × V)) (s : State K V σ) :
    (history k (pass w es s).1).map Prod.fst = (es.filter fun e => e.1 = k).map Prod.snd := by
  conv_rhs => rw [← pass_entries (w := w) es s]
  simp only [history, List.filter_map, List.map_map]
  rfl

/-- The values written at a key are its writes among the writes of the pass. -/
theorem written_history (k : K) : ∀ vs : List (Visit K V σ ε),
    written (history k vs) = ((calls vs).filter fun c => c.1 = k).map Prod.snd
  | [] => rfl
  | x :: vs => by
    have ih := written_history k vs
    have ha : x.report.answer.isSome = x.report.isCall := by cases x.report <;> rfl
    rw [calls_cons]
    by_cases hk : x.key = k
    · cases hc : x.report.isCall <;> simp_all [history, written]
    · cases hc : x.report.isCall <;> simp_all [history, written]

/-- **A pass is local at every key.** -/
theorem pass_local [DecidableEq V] (w : Write K V σ ε) (k : K) : ∀ (es : List (K × V)) (s : State K V σ),
    Local (s.cache k) (history k (pass w es s).1) ((pass w es s).2.cache k)
  | [], s => .nil (s.cache k)
  | (k', v) :: es, s => by
    have ih := pass_local w k es (put w k' v s).2
    rw [pass_cons]
    by_cases hk : k' = k
    · subst hk
      rw [history_cons_self ⟨s, k', v, (put w k' v s).1⟩]
      rcases put_cases w k' v s with ⟨hc, hp⟩ | ⟨hc, _, hp⟩ | ⟨hc, e, _, hp⟩
      · rw [hp] at ih ⊢
        rw [hc] at ih ⊢
        exact .skip ih
      · rw [hp] at ih ⊢
        simp only [Function.update_self] at ih
        exact .written hc ih
      · rw [hp] at ih ⊢
        exact .failed hc ih
    · rw [put_cache_ne (Ne.symm hk)] at ih
      rw [history_cons_ne hk]
      exact ih

end Pass

end Lib.WriteThrough

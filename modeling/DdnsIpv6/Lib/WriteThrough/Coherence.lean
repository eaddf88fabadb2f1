import DdnsIpv6.Lib.WriteThrough

/-!
# Coherence of the cache with the store

A store can be looked at (`view`), and a write to it may be refused. The cache is coherent when every entry of it is
what the store holds. An acknowledged write is applied, so only refused ones do harm: where the cache has an entry for
the key, and the store's value has changed all the same (`LossyStore.Disturbs`).

A `Store` is one whose refused writes are applied or not, nothing else. There a pass over distinct keys keeps coherence
if and only if no visit of it is a stale maker, that is a refused and applied write under a cache entry
(`coherent_iff`). A `LossyStore` may be left in other ways by a refused write, too (`left`).
-/

namespace Lib.WriteThrough

variable {K V σ ε : Type*} [DecidableEq K]

/-- Every cache entry is what the store shows. -/
def CoherentView (view : σ → Cache K V) (s : State K V σ) : Prop :=
  ∀ k v, s.cache k = some v → view s.store k = some v

/-! ## Writes that may be applied in part -/

/-- A store of values under keys. A refused write of a value leaves the key as it was, or as `left` says of the value.
-/
structure LossyStore (K V σ ε : Type*) [DecidableEq K] where
  write : Write K V σ ε
  view : σ → Cache K V
  left : V → List (Option V)
  ok : ∀ k v s, (write k v s).1 = .ok () → view (write k v s).2 = Function.update (view s) k (some v)
  error : ∀ k v s e, (write k v s).1 = .error e →
    ∃ r ∈ view s k :: left v, view (write k v s).2 = Function.update (view s) k r

/-- A write under a cache entry that was refused and has changed the value of its key. -/
def LossyStore.Disturbs (S : LossyStore K V σ ε) (x : Visit K V σ ε) : Prop :=
  x.before.cache x.key ≠ none ∧ x.report.answer = some false ∧
    S.view (S.write x.key x.value x.before.store).2 x.key ≠ S.view x.before.store x.key

section Lossy

variable [DecidableEq V] {S : LossyStore K V σ ε} {k : K} {v : V} {s : State K V σ}

omit [DecidableEq V] in
/-- A write changes its own key only. -/
theorem LossyStore.view_write_ne (S : LossyStore K V σ ε) {k' : K} (h : k' ≠ k) (t : σ) :
    S.view (S.write k v t).2 k' = S.view t k' := by
  cases hw : (S.write k v t).1 with
  | ok u => rw [S.ok k v t hw, Function.update_of_ne h]
  | error e =>
    obtain ⟨r, -, hv⟩ := S.error k v t e hw
    rw [hv, Function.update_of_ne h]

/-- **One entry keeps coherence** unless it disturbs the store. -/
theorem LossyStore.coherent_put (h : CoherentView S.view s) (hn : ¬S.Disturbs ⟨s, k, v, (put S.write k v s).1⟩) :
    CoherentView S.view (put S.write k v s).2 := by
  intro k' v' hc
  by_cases hk : k' = k
  · subst hk
    rcases put_cases S.write k' v s with ⟨_, hp⟩ | ⟨_, hw, hp⟩ | ⟨_, e, hw, hp⟩
    · rw [hp] at hc ⊢
      exact h k' v' hc
    · rw [hp] at hc ⊢
      rw [S.ok k' v s.store hw, Function.update_self]
      simpa only [Function.update_self] using hc
    · rw [hp] at hc hn ⊢
      by_contra hne
      refine hn ⟨by rw [hc]; exact Option.some_ne_none _, rfl, fun hsame => hne ?_⟩
      exact hsame.trans (h k' v' hc)
  · rw [put_cache_ne hk] at hc
    rcases put_cases S.write k v s with ⟨_, hp⟩ | ⟨_, _, hp⟩ | ⟨_, e, _, hp⟩ <;> rw [hp]
    · exact h k' v' hc
    · exact (S.view_write_ne hk s.store).trans (h k' v' hc)
    · exact (S.view_write_ne hk s.store).trans (h k' v' hc)

end Lossy

/-! ## Writes that are applied or not -/

/-- A store of values under keys whose writes can be refused, before or after they are applied. -/
structure Store (K V σ ε : Type*) [DecidableEq K] where
  write : Write K V σ ε
  view : σ → Cache K V
  ends : ∀ k v s,
    ((write k v s).1 = .ok () ∧ view (write k v s).2 = Function.update (view s) k (some v)) ∨
    (∃ e, (write k v s).1 = .error e) ∧
      (view (write k v s).2 = view s ∨ view (write k v s).2 = Function.update (view s) k (some v))

/-- Every cache entry is what the store holds. -/
def Coherent (S : Store K V σ ε) (s : State K V σ) : Prop := ∀ k v, s.cache k = some v → S.view s.store k = some v

/-- A refused write leaves the key as it was, or with the new value. -/
def Store.lossy (S : Store K V σ ε) : LossyStore K V σ ε where
  write := S.write
  view := S.view
  left v := [some v]
  ok k v s h := by
    rcases S.ends k v s with ⟨_, hv⟩ | ⟨⟨e, he⟩, _⟩
    · exact hv
    · rw [h] at he
      cases he
  error k v s e h := by
    rcases S.ends k v s with ⟨ho, _⟩ | ⟨_, hv | hv⟩
    · rw [h] at ho
      cases ho
    · exact ⟨_, List.mem_cons_self, hv.trans (Function.update_eq_self k _).symm⟩
    · exact ⟨_, List.mem_cons_of_mem _ List.mem_cons_self, hv⟩

/-- The write is in the store when the call has returned. -/
def Store.Applies (S : Store K V σ ε) (k : K) (v : V) (s : σ) : Prop :=
  S.view (S.write k v s).2 = Function.update (S.view s) k (some v)

/-- A write under a cache entry that was refused and applied all the same. -/
def Store.StaleMaker (S : Store K V σ ε) (x : Visit K V σ ε) : Prop :=
  x.before.cache x.key ≠ none ∧ x.report.answer = some false ∧ S.Applies x.key x.value x.before.store

variable [DecidableEq V] {S : Store K V σ ε} {k : K} {v : V} {s : State K V σ} {es : List (K × V)}

/-- The store shows other keys as before. -/
theorem view_put_ne {k' : K} (h : k' ≠ k) : S.view (put S.write k v s).2.store k' = S.view s.store k' := by
  have hwrite : S.view (S.write k v s.store).2 k' = S.view s.store k' := S.lossy.view_write_ne h s.store
  rcases put_cases S.write k v s with ⟨_, hp⟩ | ⟨_, _, hp⟩ | ⟨_, e, _, hp⟩ <;> rw [hp]
  · exact hwrite
  · exact hwrite

omit [DecidableEq V] in
/-- Where a refused write has changed the value, it was applied. -/
theorem Store.staleMaker_of_disturbs {x : Visit K V σ ε} (hw : ∃ e, (S.write x.key x.value x.before.store).1 = .error e)
    (h : S.lossy.Disturbs x) : S.StaleMaker x := by
  obtain ⟨hc, ha, hne⟩ := h
  refine ⟨hc, ha, ?_⟩
  obtain ⟨e, he⟩ := hw
  rcases S.ends x.key x.value x.before.store with ⟨ho, _⟩ | ⟨_, hv | hv⟩
  · rw [ho] at he
    cases he
  · exact absurd (congrFun hv x.key) hne
  · exact hv

/-- **One entry keeps coherence** unless it is a stale maker. -/
theorem coherent_put (h : Coherent S s) (hn : ¬S.StaleMaker ⟨s, k, v, (put S.write k v s).1⟩) :
    Coherent S (put S.write k v s).2 := by
  exact S.lossy.coherent_put h fun hd => hn (S.staleMaker_of_disturbs (put_refused hd.2.1) hd)

/-- A stale maker leaves the entry of its key wrong. -/
theorem stale_put (hn : S.StaleMaker ⟨s, k, v, (put S.write k v s).1⟩) :
    ∃ u, (put S.write k v s).2.cache k = some u ∧ S.view (put S.write k v s).2.store k ≠ some u := by
  obtain ⟨hc, hr, ha⟩ := hn
  obtain ⟨u, hu⟩ := Option.ne_none_iff_exists'.1 hc
  rcases put_cases S.write k v s with ⟨_, hp⟩ | ⟨_, _, hp⟩ | ⟨hne, e, _, hp⟩ <;> rw [hp] at hr ⊢
  · cases hr
  · cases hr
  · refine ⟨u, hu, fun hv => hne ?_⟩
    rw [show S.view (S.write k v s.store).2 = _ from ha, Function.update_self] at hv
    exact hu.trans hv.symm

/-- **A pass keeps coherence** when none of its visits is a stale maker. -/
theorem coherent_pass : ∀ {es : List (K × V)} {s : State K V σ}, Coherent S s →
    (∀ x ∈ (pass S.write es s).1, ¬S.StaleMaker x) → Coherent S (pass S.write es s).2
  | [], _, h, _ => h
  | (k, v) :: es, s, h, hn => by
    rw [pass_cons] at hn ⊢
    exact coherent_pass (coherent_put h (hn _ List.mem_cons_self)) fun x hx => hn x (List.mem_cons_of_mem _ hx)

/-- Every visit of such a pass meets a coherent state. -/
theorem coherent_before : ∀ {es : List (K × V)} {s : State K V σ}, Coherent S s →
    (∀ x ∈ (pass S.write es s).1, ¬S.StaleMaker x) → ∀ x ∈ (pass S.write es s).1, Coherent S x.before
  | [], _, _, _, _, hx => absurd hx List.not_mem_nil
  | (k, v) :: es, s, h, hn, x, hx => by
    rw [pass_cons] at hn hx
    rcases List.mem_cons.1 hx with rfl | hx
    · exact h
    · exact coherent_before (coherent_put h (hn _ List.mem_cons_self))
        (fun y hy => hn y (List.mem_cons_of_mem _ hy)) x hx

/-- A wrong entry stays wrong through a pass that has no entry for its key. -/
theorem not_coherent_of_ne {k : K} {u : V} : ∀ {es : List (K × V)} {s : State K V σ}, k ∉ es.map Prod.fst →
    s.cache k = some u → S.view s.store k ≠ some u → ¬Coherent S (pass S.write es s).2
  | [], _, _, hc, hv => fun h => hv (h k u hc)
  | (k', v) :: es, s, hk, hc, hv => by
    rw [List.map_cons, List.mem_cons, not_or] at hk
    rw [pass_cons]
    exact not_coherent_of_ne hk.2 (by rw [put_cache_ne hk.1]; exact hc) (by rw [view_put_ne hk.1]; exact hv)

/-- **Coherence of a pass over distinct keys**: it is kept exactly when no visit is a stale maker. -/
theorem coherent_iff : ∀ {es : List (K × V)} {s : State K V σ}, Coherent S s → (es.map Prod.fst).Nodup →
    (Coherent S (pass S.write es s).2 ↔ ∀ x ∈ (pass S.write es s).1, ¬S.StaleMaker x)
  | [], _, h, _ => ⟨fun _ _ hx => absurd hx List.not_mem_nil, fun _ => h⟩
  | (k, v) :: es, s, h, hnd => by
    rw [List.map_cons, List.nodup_cons] at hnd
    refine ⟨fun hc => ?_, coherent_pass h⟩
    rw [pass_cons] at hc ⊢
    have hn : ¬S.StaleMaker ⟨s, k, v, (put S.write k v s).1⟩ := by
      intro hn
      obtain ⟨u, hu, hv⟩ := stale_put hn
      exact not_coherent_of_ne hnd.1 hu hv hc
    intro x hx
    rcases List.mem_cons.1 hx with rfl | hx
    · exact hn
    · exact (coherent_iff (coherent_put h hn) hnd.2).1 hc x hx

end Lib.WriteThrough

import DdnsIpv6.Lib.WriteThrough.Coherence

/-!
# Stores that are read by calls

A store whose writes may fail, before or after they are applied, or in part, and whose reads may fail too. What was
heard of the calls so far says what a key may hold (`held`): the value that was read or acknowledged last, or what the
writes that were refused after that may have left (`left`). A read that succeeds tells one of these values
(`HonestClient.read_held`).
-/

namespace Lib.WriteThrough

variable {K V σ ε : Type*}

/-- A call to the store. -/
inductive Call (K V : Type*) where
  | read (k : K)
  | write (k : K) (v : V)

def Call.key : Call K V → K
  | .read k => k
  | .write k _ => k

/-- What is heard of a call. -/
inductive Heard (K V ε : Type*) where
  | read (k : K) (answer : Except ε (Option V))
  | write (k : K) (v : V) (answer : Except ε Unit)

/-- The calls to the store. -/
structure Client (K V σ ε : Type*) where
  write : Write K V σ ε
  read : K → σ → Except ε (Option V) × σ

/-- One call. -/
def Client.call (c : Client K V σ ε) (s : σ) : Call K V → Heard K V ε × σ
  | .read k => (.read k (c.read k s).1, (c.read k s).2)
  | .write k v => (.write k v (c.write k v s).1, (c.write k v s).2)

/-- The calls of a list, one after the other. -/
def Client.calls (c : Client K V σ ε) : List (Call K V) → σ → List (Heard K V ε) × σ
  | [], s => ([], s)
  | x :: xs, s =>
    let (e, s) := c.call s x
    let (es, s) := c.calls xs s
    (e :: es, s)

variable [DecidableEq K]

/-- What the key may hold after a call, where a refused write of `v` may leave `left v`. -/
def heldAfter (left : V → List (Option V)) (k : K) (vs : List (Option V)) : Heard K V ε → List (Option V)
  | .read k' (.ok r) => if k' = k then [r] else vs
  | .read _ (.error _) => vs
  | .write k' v (.ok _) => if k' = k then [some v] else vs
  | .write k' v (.error _) => if k' = k then left v ++ vs else vs

/-- What the key may hold after some calls, if it held one of `vs` before. -/
def held (left : V → List (Option V)) (k : K) (vs : List (Option V)) (es : List (Heard K V ε)) : List (Option V) :=
  es.foldl (heldAfter left k) vs

/-- A client that is honest about the store, for the keys of `D`: a write that succeeds is applied, one that fails
leaves the key as it was or as `left` says, and a read that succeeds tells what the store holds. -/
structure HonestClient (view : σ → Cache K V) (left : V → List (Option V)) (c : Client K V σ ε) (D : K → Prop) :
    Prop where
  write_ok : ∀ k, D k → ∀ v s, (c.write k v s).1 = .ok () →
    view (c.write k v s).2 = Function.update (view s) k (some v)
  write_error : ∀ k, D k → ∀ v s e, (c.write k v s).1 = .error e →
    ∃ r ∈ view s k :: left v, view (c.write k v s).2 = Function.update (view s) k r
  read_frame : ∀ k, D k → ∀ s, view (c.read k s).2 = view s
  read_truth : ∀ k, D k → ∀ s r, (c.read k s).1 = .ok r → r = view s k

variable {view : σ → Cache K V} {left : V → List (Option V)} {c : Client K V σ ε} {D : K → Prop} {k : K}
  {s : σ} {vs : List (Option V)}

/-- The key holds what may be expected after one call. -/
theorem HonestClient.mem_heldAfter (hc : HonestClient view left c D) {x : Call K V} (hx : D x.key) (h : view s k ∈ vs) :
    view (c.call s x).2 k ∈ heldAfter left k vs (c.call s x).1 := by
  cases x with
  | read k' =>
    simp only [Client.call]
    rw [hc.read_frame k' hx]
    cases ha : (c.read k' s).1 with
    | error e => exact h
    | ok r =>
      simp only [heldAfter]
      split
      · rename_i hk
        subst hk
        exact List.mem_singleton.2 (hc.read_truth k' hx s r ha).symm
      · exact h
  | write k' v =>
    simp only [Client.call]
    by_cases hk : k' = k
    · subst hk
      cases ha : (c.write k' v s).1 with
      | ok u =>
        rw [hc.write_ok k' hx v s ha, Function.update_self]
        simp only [heldAfter, if_true, List.mem_singleton]
      | error e =>
        obtain ⟨r, hr, hv⟩ := hc.write_error k' hx v s e ha
        rw [hv, Function.update_self]
        simp only [heldAfter, if_true]
        rcases List.mem_cons.1 hr with rfl | hr
        · exact List.mem_append_right _ h
        · exact List.mem_append_left _ hr
    · have hview : view (c.write k' v s).2 k = view s k := by
        cases ha : (c.write k' v s).1 with
        | ok u => rw [hc.write_ok k' hx v s ha, Function.update_of_ne (Ne.symm hk)]
        | error e =>
          obtain ⟨r, -, hv⟩ := hc.write_error k' hx v s e ha
          rw [hv, Function.update_of_ne (Ne.symm hk)]
      rw [hview]
      cases (c.write k' v s).1 <;> simpa only [heldAfter, if_neg hk] using h

/-- The key holds what may be expected after all calls. -/
theorem HonestClient.mem_held (hc : HonestClient view left c D) :
    ∀ {xs : List (Call K V)} {s : σ} {vs : List (Option V)}, (∀ x ∈ xs, D x.key) → view s k ∈ vs →
      view (c.calls xs s).2 k ∈ held left k vs (c.calls xs s).1
  | [], _, _, _, h => h
  | x :: xs, s, _, hxs, h => by
    have hrest : ∀ y ∈ xs, D y.key := fun y hy => hxs y (List.mem_cons_of_mem _ hy)
    have hheld := hc.mem_held hrest (hc.mem_heldAfter (hxs x List.mem_cons_self) h)
    exact hheld

/-- **A read that succeeds** tells one of the values that the key may hold. -/
theorem HonestClient.read_held (hc : HonestClient view left c D) {xs : List (Call K V)} (hxs : ∀ x ∈ xs, D x.key)
    (hk : D k) {r : Option V} (h : (c.read k (c.calls xs s).2).1 = .ok r) :
    r ∈ held left k [view s k] (c.calls xs s).1 := by
  rw [hc.read_truth k hk _ r h]
  exact hc.mem_held hxs (List.mem_singleton.2 rfl)

end Lib.WriteThrough

import Mathlib.Logic.Function.Basic
import Mathlib.Data.List.Nodup

/-!
# Write-through passes over a cache

A cache `K → Option V` stands in front of a store that can refuse a write. A pass takes a list of entries `(k, v)`: an
entry the cache already agrees with is skipped, any other is written to the store, and a write that the store
acknowledges goes into the cache. `pass` also lists what it did, entry by entry, as `Visit`s.

- `pass_made`: a pass makes the writes it reports, gets the answers it reports, and makes no others;
- `pass_cache`: the cache after a pass is the last acknowledged write of each key, else the old entry;
- `pass_last`: the last entry of a key decides the key unless its write failed;
- `calls_of_nodup`: without repeated keys the writes are exactly the entries that the old cache disagrees with;
- `pass_quiet_iff`: a pass without writes is a pass over entries that the cache agrees with;
- `agrees_iff`: after a pass without failures the cache agrees with all entries iff no two entries contradict each
  other.
-/

namespace Lib.WriteThrough

variable {K V σ ε : Type*}

abbrev Cache (K V : Type*) := K → Option V

/-- A write to the store: acknowledged or refused, and the store afterwards. -/
abbrev Write (K V σ ε : Type*) := K → V → σ → Except ε Unit × σ

/-- What a pass did with an entry. -/
inductive Report (ε : Type*) where
  | skipped
  | written
  | failed (e : ε)
  deriving DecidableEq, Repr

/-- The entry was written to the store. -/
def Report.isCall : Report ε → Bool
  | .skipped => false
  | .written | .failed _ => true

/-- The answer of the store, if it was asked. -/
def Report.answer : Report ε → Option Bool
  | .skipped => none
  | .written => some true
  | .failed _ => some false

/-- The same, in the words of the store. -/
def Report.result : Report ε → Option (Except ε Unit)
  | .skipped => none
  | .written => some (.ok ())
  | .failed e => some (.error e)

structure State (K V σ : Type*) where
  cache : Cache K V
  store : σ

/-- An entry of a pass, with the state it met and what was done. -/
structure Visit (K V σ ε : Type*) where
  before : State K V σ
  key : K
  value : V
  report : Report ε

/-- The entries written to the store. -/
def calls (vs : List (Visit K V σ ε)) : List (K × V) :=
  (vs.filter fun v => v.report.isCall).map fun v => (v.key, v.value)

/-- What the store answered to them. -/
def results (vs : List (Visit K V σ ε)) : List (Except ε Unit) := vs.filterMap fun v => v.report.result

/-- Writes one after the other: the answers, and the store after them. -/
def replay (w : Write K V σ ε) : List (K × V) → σ → List (Except ε Unit) × σ
  | [], t => ([], t)
  | (k, v) :: cs, t => ((w k v t).1 :: (replay w cs (w k v t).2).1, (replay w cs (w k v t).2).2)

/-- The visits `vs` are what happened to the store between `t` and `t'`: their writes, one after the other, get the
answers they report and lead there. -/
def Made (w : Write K V σ ε) (t : σ) (vs : List (Visit K V σ ε)) (t' : σ) : Prop :=
  replay w (calls vs) t = (results vs, t')

theorem calls_cons (x : Visit K V σ ε) (vs : List (Visit K V σ ε)) :
    calls (x :: vs) = if x.report.isCall then (x.key, x.value) :: calls vs else calls vs := by
  unfold calls
  cases h : x.report.isCall <;> simp [h]

theorem calls_append (vs ws : List (Visit K V σ ε)) : calls (vs ++ ws) = calls vs ++ calls ws := by
  rw [calls, List.filter_append, List.map_append]
  rfl

section Made

variable {w : Write K V σ ε} {t t' t'' : σ} {vs ws : List (Visit K V σ ε)}

theorem replay_append : ∀ (cs ds : List (K × V)) (t : σ), replay w (cs ++ ds) t =
    ((replay w cs t).1 ++ (replay w ds (replay w cs t).2).1, (replay w ds (replay w cs t).2).2)
  | [], _, _ => rfl
  | (k, v) :: cs, ds, t => by simp only [List.cons_append, replay, replay_append cs ds]

theorem made_nil (w : Write K V σ ε) (t : σ) : Made w t [] t := rfl

/-- What happened to the store, one stretch after the other. -/
theorem Made.append (h : Made w t vs t') (h' : Made w t' ws t'') : Made w t (vs ++ ws) t'' := by
  unfold Made at h h' ⊢
  have hres : results (vs ++ ws) = results vs ++ results ws := List.filterMap_append
  rw [calls_append, replay_append, h, h', hres]

end Made

section Pass

variable [DecidableEq K] [DecidableEq V]

/-- One entry: skip it, or write it and remember an acknowledged write. -/
def put (w : Write K V σ ε) (k : K) (v : V) (s : State K V σ) : Report ε × State K V σ :=
  if s.cache k = some v then (.skipped, s)
  else match w k v s.store with
    | (.ok (), t) => (.written, ⟨Function.update s.cache k (some v), t⟩)
    | (.error e, t) => (.failed e, ⟨s.cache, t⟩)

/-- All entries in order. -/
def pass (w : Write K V σ ε) : List (K × V) → State K V σ → List (Visit K V σ ε) × State K V σ
  | [], s => ([], s)
  | (k, v) :: es, s =>
    (⟨s, k, v, (put w k v s).1⟩ :: (pass w es (put w k v s).2).1, (pass w es (put w k v s).2).2)

/-! ## One entry -/

variable {w : Write K V σ ε} {k : K} {v : V} {s : State K V σ} {es : List (K × V)}

/-- What one entry can do. -/
theorem put_cases (w : Write K V σ ε) (k : K) (v : V) (s : State K V σ) :
    (s.cache k = some v ∧ put w k v s = (.skipped, s)) ∨
    (s.cache k ≠ some v ∧ (w k v s.store).1 = .ok () ∧
      put w k v s = (.written, ⟨Function.update s.cache k (some v), (w k v s.store).2⟩)) ∨
    (s.cache k ≠ some v ∧ ∃ e, (w k v s.store).1 = .error e ∧
      put w k v s = (.failed e, ⟨s.cache, (w k v s.store).2⟩)) := by
  unfold put
  by_cases h : s.cache k = some v
  · exact Or.inl ⟨h, by simp [h]⟩
  · right
    rcases hw : w k v s.store with ⟨_ | _, t⟩
    · exact Or.inr ⟨h, _, rfl, by simp [h]⟩
    · exact Or.inl ⟨h, rfl, by simp [h]⟩

/-- An entry touches the cache at its own key only. -/
theorem put_cache_ne {k' : K} (h : k' ≠ k) : (put w k v s).2.cache k' = s.cache k' := by
  rcases put_cases w k v s with ⟨_, hp⟩ | ⟨_, _, hp⟩ | ⟨_, e, _, hp⟩ <;> rw [hp]
  exact Function.update_of_ne h _ _

/-- An entry whose write did not fail leaves its value in the cache. -/
theorem put_cache_self (h : (put w k v s).1.answer ≠ some false) : (put w k v s).2.cache k = some v := by
  rcases put_cases w k v s with ⟨hc, hp⟩ | ⟨_, _, hp⟩ | ⟨_, e, _, hp⟩
  · rw [hp]
    exact hc
  · rw [hp]
    exact Function.update_self _ _ _
  · rw [hp] at h
    exact absurd rfl h

/-- The store is asked exactly when the cache disagrees. -/
theorem put_isCall : (put w k v s).1.isCall = true ↔ s.cache k ≠ some v := by
  rcases put_cases w k v s with ⟨hc, hp⟩ | ⟨hc, _, hp⟩ | ⟨hc, e, _, hp⟩ <;> rw [hp] <;> simp [Report.isCall, hc]

/-- An entry that failed was refused by the store. -/
theorem put_refused (h : (put w k v s).1.answer = some false) : ∃ e, (w k v s.store).1 = .error e := by
  rcases put_cases w k v s with ⟨_, hp⟩ | ⟨_, _, hp⟩ | ⟨_, e, hw, hp⟩ <;> rw [hp] at h
  · cases h
  · cases h
  · exact ⟨e, hw⟩

/-- A skipped entry changes nothing. -/
theorem put_of_agrees (h : s.cache k = some v) : put w k v s = (.skipped, s) := by simp [put, h]

/-! ## A pass -/

@[simp] theorem pass_nil : pass w [] s = ([], s) := rfl

theorem pass_cons : pass w ((k, v) :: es) s =
    (⟨s, k, v, (put w k v s).1⟩ :: (pass w es (put w k v s).2).1, (pass w es (put w k v s).2).2) := rfl

/-- Passes compose. -/
theorem pass_append : ∀ (es fs : List (K × V)) (s : State K V σ), pass w (es ++ fs) s =
    ((pass w es s).1 ++ (pass w fs (pass w es s).2).1, (pass w fs (pass w es s).2).2)
  | [], _, _ => rfl
  | (k, v) :: es, fs, s => by simp only [List.cons_append, pass_cons, pass_append es fs]

/-- A pass with one more entry. -/
theorem pass_concat (es : List (K × V)) (s : State K V σ) : pass w (es ++ [(k, v)]) s =
    ((pass w es s).1 ++ [⟨(pass w es s).2, k, v, (put w k v (pass w es s).2).1⟩], (put w k v (pass w es s).2).2) := by
  rw [pass_append]
  rfl

/-- The visits of a pass are its entries, in order. -/
theorem pass_entries : ∀ (es : List (K × V)) (s : State K V σ),
    (pass w es s).1.map (fun x => (x.key, x.value)) = es
  | [], _ => rfl
  | (k, v) :: es, s => by simp only [pass_cons, List.map_cons, pass_entries es]

/-- The keys of a pass are the keys of its entries. -/
theorem pass_keys (es : List (K × V)) (s : State K V σ) : (pass w es s).1.map Visit.key = es.map Prod.fst := by
  rw [← congrArg (List.map Prod.fst) (pass_entries (w := w) es s), List.map_map]
  rfl

/-- A pass keeps the entries of all other keys. -/
theorem pass_cache_ne : ∀ {es : List (K × V)} {s : State K V σ} {k : K}, k ∉ es.map Prod.fst →
    (pass w es s).2.cache k = s.cache k
  | [], _, _, _ => rfl
  | (k', v) :: es, s, k, h => by
    rw [List.map_cons, List.mem_cons, not_or] at h
    rw [pass_cons, pass_cache_ne h.2, put_cache_ne h.1]

/-- A visit splits its pass: what comes before it is a pass over the entries before it. -/
theorem pass_split : ∀ {es : List (K × V)} {s : State K V σ} {vs ws : List (Visit K V σ ε)} {x : Visit K V σ ε},
    (pass w es s).1 = vs ++ x :: ws →
    ∃ es₁ es₂, es = es₁ ++ (x.key, x.value) :: es₂ ∧ vs = (pass w es₁ s).1 ∧ x.before = (pass w es₁ s).2 ∧
      x.report = (put w x.key x.value x.before).1 ∧ ws = (pass w es₂ (put w x.key x.value x.before).2).1 ∧
      (pass w es s).2 = (pass w es₂ (put w x.key x.value x.before).2).2
  | [], _, vs, _, _, h => by simp at h
  | (k, v) :: es, s, [], _, _, h => by
    rw [pass_cons] at h
    cases h
    exact ⟨[], es, rfl, rfl, rfl, rfl, rfl, rfl⟩
  | (k, v) :: es, s, y :: vs, _, _, h => by
    rw [pass_cons, List.cons_append, List.cons.injEq] at h
    obtain ⟨es₁, es₂, he, hv, hb, hr, hw, hs⟩ := pass_split h.2
    exact ⟨(k, v) :: es₁, es₂, by rw [he]; rfl, by rw [pass_cons, ← h.1, ← hv], hb, hr, hw, hs⟩

/-- The writes of a pass are among its entries. -/
theorem mem_of_mem_calls {c : K × V} (h : c ∈ calls (pass w es s).1) : c ∈ es := by
  obtain ⟨x, hx, rfl⟩ := List.mem_map.1 h
  rw [← pass_entries (w := w) es s]
  exact List.mem_map_of_mem (List.mem_filter.1 hx).1

/-- A visit asks the store exactly when the cache it met disagrees. -/
theorem pass_isCall {x : Visit K V σ ε} (h : x ∈ (pass w es s).1) :
    x.report.isCall = true ↔ x.before.cache x.key ≠ some x.value := by
  obtain ⟨vs, ws, hs⟩ := List.append_of_mem h
  obtain ⟨_, _, _, _, _, hr, _, _⟩ := pass_split hs
  rw [hr]
  exact put_isCall

/-- A skipped entry is one that the cache agrees with. -/
theorem pass_skipped {x : Visit K V σ ε} (h : x ∈ (pass w es s).1) (hx : x.report = .skipped) :
    x.before.cache x.key = some x.value := by
  by_contra hne
  have hcall := (pass_isCall h).2 hne
  rw [hx] at hcall
  cases hcall

/-- What a visit reports is what the store answered. -/
theorem pass_report {x : Visit K V σ ε} (h : x ∈ (pass w es s).1) :
    (x.report = .written ↔
      x.before.cache x.key ≠ some x.value ∧ (w x.key x.value x.before.store).1 = .ok ()) ∧
    ∀ e, x.report = .failed e ↔
      x.before.cache x.key ≠ some x.value ∧ (w x.key x.value x.before.store).1 = .error e := by
  obtain ⟨vs, ws, hs⟩ := List.append_of_mem h
  obtain ⟨_, _, _, _, _, hr, _, _⟩ := pass_split hs
  rw [hr]
  rcases put_cases w x.key x.value x.before with ⟨hc, hp⟩ | ⟨hc, ha, hp⟩ | ⟨hc, e, ha, hp⟩ <;> rw [hp]
  · simp [hc]
  · simp [hc, ha]
  · simp [hc, ha]

/-! ## The store after a pass -/

/-- One entry writes what it reports. -/
theorem put_made (w : Write K V σ ε) (k : K) (v : V) (s : State K V σ) :
    Made w s.store [⟨s, k, v, (put w k v s).1⟩] (put w k v s).2.store := by
  rcases put_cases w k v s with ⟨_, hp⟩ | ⟨_, ha, hp⟩ | ⟨_, e, ha, hp⟩ <;> rw [hp]
  · rfl
  · simp [Made, calls, results, replay, Report.isCall, Report.result, ha]
  · simp [Made, calls, results, replay, Report.isCall, Report.result, ha]

/-- **A pass makes the writes it reports**, and no others. -/
theorem pass_made (w : Write K V σ ε) : ∀ (es : List (K × V)) (s : State K V σ),
    Made w s.store (pass w es s).1 (pass w es s).2.store
  | [], _ => rfl
  | (k, v) :: es, s => (put_made w k v s).append (pass_made w es _)

/-! ## The cache after a pass -/

/-- The value of the last acknowledged write of `k`. -/
def lastWritten (k : K) : List (Visit K V σ ε) → Option V
  | [] => none
  | x :: xs => (lastWritten k xs).or (if x.key = k ∧ x.report.answer = some true then some x.value else none)

/-- **The cache after a pass**: the last acknowledged write of the key, or the old entry. -/
theorem pass_cache (k : K) : ∀ (es : List (K × V)) (s : State K V σ),
    (pass w es s).2.cache k = (lastWritten k (pass w es s).1).or (s.cache k)
  | [], _ => rfl
  | (k', v) :: es, s => by
    simp only [pass_cons, lastWritten, Option.or_assoc]
    rw [pass_cache k es]
    congr 1
    by_cases hk : k' = k
    · subst hk
      rcases put_cases w k' v s with ⟨hc, hp⟩ | ⟨_, _, hp⟩ | ⟨_, e, _, hp⟩ <;> simp [hp, Report.answer]
    · simp [hk, put_cache_ne (Ne.symm hk)]

/-- What a visit meets: the writes before it are made, and the acknowledged ones are in the cache. -/
theorem pass_met {vs ws : List (Visit K V σ ε)} {x : Visit K V σ ε} (h : (pass w es s).1 = vs ++ x :: ws) :
    Made w s.store vs x.before.store ∧ ∀ k, x.before.cache k = (lastWritten k vs).or (s.cache k) := by
  obtain ⟨es₁, _, _, hv, hb, _⟩ := pass_split h
  rw [hv, hb]
  exact ⟨pass_made w es₁ s, fun k => pass_cache k es₁ s⟩

omit [DecidableEq V] in
/-- `lastWritten` is found at the last visit of the key that was acknowledged. -/
theorem lastWritten_of_split {vs ws : List (Visit K V σ ε)} {x : Visit K V σ ε} (hx : x.report.answer = some true)
    (hw : ∀ y ∈ ws, y.key = x.key → y.report.answer ≠ some true) :
    lastWritten x.key (vs ++ x :: ws) = some x.value := by
  have hws : ∀ ys : List (Visit K V σ ε), (∀ y ∈ ys, y.key = x.key → y.report.answer ≠ some true) →
      lastWritten x.key ys = none := by
    intro ys
    induction ys with
    | nil => exact fun _ => rfl
    | cons y ys ih =>
      intro h
      rw [lastWritten, ih fun z hz => h z (List.mem_cons_of_mem _ hz),
        if_neg fun hy => h y List.mem_cons_self hy.1 hy.2]
      rfl
  induction vs with
  | nil => simp [lastWritten, hws ws hw, hx]
  | cons y vs ih => simp [lastWritten, ih]

omit [DecidableEq V] in
/-- No acknowledged write of `k`, no last one. -/
theorem lastWritten_eq_none {k : K} : ∀ {vs : List (Visit K V σ ε)},
    (∀ y ∈ vs, y.key = k → y.report.answer ≠ some true) → lastWritten k vs = none
  | [], _ => rfl
  | y :: vs, h => by
    rw [lastWritten, lastWritten_eq_none fun z hz => h z (List.mem_cons_of_mem _ hz),
      if_neg fun hy => h y List.mem_cons_self hy.1 hy.2]
    rfl

/-- **The last entry of a key decides it**, unless its write failed. -/
theorem pass_last {vs ws : List (Visit K V σ ε)} {x : Visit K V σ ε} (h : (pass w es s).1 = vs ++ x :: ws)
    (hlast : ∀ y ∈ ws, y.key ≠ x.key) (hx : x.report.answer ≠ some false) :
    (pass w es s).2.cache x.key = some x.value := by
  obtain ⟨es₁, es₂, _, _, _, hr, hw, hs⟩ := pass_split h
  rw [hs]
  have hnot : x.key ∉ es₂.map Prod.fst := by
    rw [← pass_keys (w := w) es₂ (put w x.key x.value x.before).2, ← hw]
    intro hm
    obtain ⟨y, hy, hk⟩ := List.mem_map.1 hm
    exact hlast y hy hk
  rw [pass_cache_ne hnot]
  exact put_cache_self (by rw [← hr]; exact hx)

/-- In a pass without failures the last entry of a key decides it. -/
theorem pass_decides {fs : List (K × V)} (hk : k ∉ fs.map Prod.fst)
    (hok : ∀ x ∈ (pass w (es ++ (k, v) :: fs) s).1, x.report.answer ≠ some false) :
    (pass w (es ++ (k, v) :: fs) s).2.cache k = some v := by
  rw [pass_append, pass_cons] at hok ⊢
  rw [pass_cache_ne hk]
  exact put_cache_self (hok ⟨_, k, v, _⟩ (List.mem_append_right _ List.mem_cons_self))

/-! ## The writes of a pass -/

/-- **Without repeated keys** the writes are the entries that the old cache disagrees with, in order, whatever the
store answers. -/
theorem calls_of_nodup : ∀ {es : List (K × V)} {s : State K V σ}, (es.map Prod.fst).Nodup →
    calls (pass w es s).1 = es.filter fun e => s.cache e.1 ≠ some e.2
  | [], _, _ => rfl
  | (k, v) :: es, s, h => by
    rw [List.map_cons, List.nodup_cons] at h
    have ih := calls_of_nodup (s := (put w k v s).2) h.2
    have hsame : es.filter (fun e => (put w k v s).2.cache e.1 ≠ some e.2) =
        es.filter fun e => s.cache e.1 ≠ some e.2 := by
      apply List.filter_congr
      intro e he
      have hne : e.1 ≠ k := fun hk => h.1 (List.mem_map.2 ⟨e, he, hk⟩)
      rw [put_cache_ne hne]
    rw [pass_cons, calls_cons, ih, hsame]
    by_cases hc : s.cache k = some v
    · rw [if_neg (by rw [put_isCall]; exact fun hn => hn hc), List.filter_cons_of_neg (by simpa using hc)]
    · rw [if_pos (put_isCall.2 hc), List.filter_cons_of_pos (by simpa using hc)]

/-- A pass over entries that the cache agrees with only skips. -/
theorem pass_of_agrees : ∀ {es : List (K × V)}, (∀ e ∈ es, s.cache e.1 = some e.2) →
    (pass w es s).2 = s ∧ calls (pass w es s).1 = []
  | [], _ => ⟨rfl, rfl⟩
  | (k, v) :: es, h => by
    have hp := put_of_agrees (w := w) (h (k, v) List.mem_cons_self)
    rw [pass_cons, hp, calls_cons]
    exact pass_of_agrees fun e he => h e (List.mem_cons_of_mem _ he)

/-- **A pass is quiet** exactly when the cache agrees with all its entries. -/
theorem pass_quiet_iff : ∀ {es : List (K × V)} {s : State K V σ},
    calls (pass w es s).1 = [] ↔ ∀ e ∈ es, s.cache e.1 = some e.2
  | [], _ => by simp [calls]
  | (k, v) :: es, s => by
    refine ⟨fun h => ?_, fun h => (pass_of_agrees h).2⟩
    rw [pass_cons, calls_cons] at h
    split at h
    · cases h
    · rename_i hn
      have hc : s.cache k = some v := by
        by_contra hne
        exact hn (put_isCall.2 hne)
      rw [put_of_agrees hc] at h
      intro e he
      rcases List.mem_cons.1 he with rfl | he
      · exact hc
      · exact pass_quiet_iff.1 h e he

/-! ## Passes in which no write fails -/

/-- After a pass without failures the cache holds, for the key of every entry, the value of an entry of that key. -/
theorem pass_value : ∀ {es : List (K × V)} {s : State K V σ},
    (∀ x ∈ (pass w es s).1, x.report.answer ≠ some false) → ∀ e ∈ es, ∃ e' ∈ es, e'.1 = e.1 ∧
      (pass w es s).2.cache e.1 = some e'.2
  | [], _, _, _, he => absurd he List.not_mem_nil
  | (k, v) :: es, s, h, e, he => by
    have htail : ∀ x ∈ (pass w es (put w k v s).2).1, x.report.answer ≠ some false := fun x hx =>
      h x (List.mem_cons_of_mem _ hx)
    by_cases hk : e.1 ∈ es.map Prod.fst
    · obtain ⟨f, hf, hfk⟩ := List.mem_map.1 hk
      obtain ⟨e', he', hk', hc⟩ := pass_value htail f hf
      exact ⟨e', List.mem_cons_of_mem _ he', hk'.trans hfk, by rw [pass_cons, ← hfk]; exact hc⟩
    · have hek : e = (k, v) := by
        rcases List.mem_cons.1 he with h' | h'
        · exact h'
        · exact absurd (List.mem_map_of_mem h') hk
      subst hek
      refine ⟨(k, v), List.mem_cons_self, rfl, ?_⟩
      rw [pass_cons, pass_cache_ne hk]
      exact put_cache_self (h ⟨s, k, v, _⟩ List.mem_cons_self)

/-- **After a pass without failures** the cache agrees with all entries exactly when no two of them contradict each
other. -/
theorem agrees_iff (h : ∀ x ∈ (pass w es s).1, x.report.answer ≠ some false) :
    (∀ e ∈ es, (pass w es s).2.cache e.1 = some e.2) ↔ ∀ e ∈ es, ∀ e' ∈ es, e.1 = e'.1 → e.2 = e'.2 := by
  constructor
  · intro ha e he e' he' hk
    have h₁ := ha e he
    rw [hk, ha e' he'] at h₁
    exact (Option.some.inj h₁).symm
  · intro hc e he
    obtain ⟨e', he', hk, hv⟩ := pass_value h e he
    rw [hv, hc e he e' he' hk.symm]

end Pass

end Lib.WriteThrough

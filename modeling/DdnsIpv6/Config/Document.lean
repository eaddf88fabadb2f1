import DdnsIpv6.Config

/-!
# Documents

A document is a list of statements: headers and assignments. An assignment belongs to the table of the header above it
(`Assembly.step`), so that the same line means different settings in different places; `assemble` builds the tree that
the deserializers read. What else a text has to meet (a table is not defined twice, for one) is left to the parser,
which comes before.

Paths lead to the values of a tree: `Toml.get?` reads one, `Toml.put` writes one. An assignment of a plain value
can be found in the tree, at the end of some path (`contains_path`).
-/

namespace DdnsIpv6

/-! ## Paths -/

/-- One step into a value: into a table or into an array. -/
inductive TomlStep where
  | key (k : String)
  | index (i : Nat)
  deriving DecidableEq, Repr

/-- The value at the end of a path. -/
def Toml.get? : Toml → List TomlStep → Option Toml
  | t, [] => some t
  | .table kvs, .key k :: p => (kvs.lookup k).bind fun v => v.get? p
  | .array vs, .index i :: p => vs[i]?.bind fun v => v.get? p
  | _, _ :: _ => none

/-- Write the value of a key, given the one that is there. -/
def setKey (k : String) (f : Option Toml → Toml) : List (String × Toml) → List (String × Toml)
  | [] => [(k, f none)]
  | (k', v) :: kvs => if k = k' then (k', f (some v)) :: kvs else (k', v) :: setKey k f kvs

/-- Write the `i`-th element, or append one. -/
def setIndex (i : Nat) (f : Option Toml → Toml) (vs : List Toml) : List Toml :=
  if i = vs.length then vs ++ [f none] else vs.modify i fun v => f (some v)

/-- Write the value at the end of a path. Tables that are missing on the way are made; nothing else is replaced. -/
def Toml.put : Toml → List TomlStep → Toml → Toml
  | _, [], w => w
  | .table kvs, .key k :: p, w => .table (setKey k (fun v => (v.getD (.table [])).put p w) kvs)
  | .array vs, .index i :: p, w => .array (setIndex i (fun v => (v.getD (.table [])).put p w) vs)
  | t, _ :: _, _ => t

/-- The keys and values of a table. -/
def Toml.entries : Toml → List (String × Toml)
  | .table kvs => kvs
  | _ => []

/-- A value without a way into it. -/
def Toml.IsPlain : Toml → Prop
  | .table _ | .array _ => False
  | _ => True

/-! ## Documents -/

/-- `[ks]`, `[[ks.k]]` and `ks.k = v`. -/
inductive Statement where
  | header (ks : List String)
  | arrayHeader (ks : List String) (k : String)
  | assign (ks : List String) (k : String) (v : Toml)

/-- The tree so far, and the table of the header above. -/
structure Assembly where
  tree : Toml
  header : List TomlStep

/-- Where the keys of a header lead: in an array of tables, to its last element. -/
def Toml.resolve : Toml → List String → List TomlStep
  | _, [] => []
  | t, k :: ks =>
    match t.get? [.key k] with
    | some (.array vs) => .key k :: .index (vs.length - 1) :: (vs.getLast?.getD (.table [])).resolve ks
    | some v => .key k :: v.resolve ks
    | none => .key k :: ks.map .key

/-- One statement. -/
def Assembly.step (a : Assembly) : Statement → Except String Assembly
  | .header ks =>
    let p := a.tree.resolve ks
    .ok ⟨if (a.tree.get? p).isSome then a.tree else a.tree.put p (.table []), p⟩
  | .arrayHeader ks k =>
    let p := a.tree.resolve ks ++ [.key k]
    match a.tree.get? p with
    | none => .ok ⟨a.tree.put p (.array [.table []]), p ++ [.index 0]⟩
    | some (.array vs) => .ok ⟨a.tree.put (p ++ [.index vs.length]) (.table []), p ++ [.index vs.length]⟩
    | some _ => .error "not an array of tables"
  | .assign ks k v =>
    let p := a.header ++ ks.map .key ++ [.key k]
    if (a.tree.get? p).isSome then .error "duplicate key"
    else if ((a.tree.put p v).get? p).isNone then .error "not a table"
    else .ok ⟨a.tree.put p v, a.header⟩

/-- The tree of a document. -/
def assemble (doc : List Statement) : Except String Toml :=
  (doc.foldlM Assembly.step ⟨.table [], []⟩).map Assembly.tree

/-- The document assigns `v` to the key `k` in some place: as a statement, or in an inline table. -/
inductive Contains (doc : List Statement) (k : String) (v : Toml) : Prop
  | statement (ks : List String) (h : .assign ks k v ∈ doc) : Contains doc k v
  | inline (ks : List String) (k' : String) (t : Toml) (p : List TomlStep) (h : .assign ks k' t ∈ doc)
      (ht : t.get? (p ++ [.key k]) = some v) : Contains doc k v

/-! ## Reading and writing -/

variable {t v w x : Toml} {p q : List TomlStep} {k k' : String} {kvs : List (String × Toml)} {vs : List Toml}
  {i j : Nat} {f : Option Toml → Toml}

theorem lookup_setKey_self : (setKey k f kvs).lookup k = some (f (kvs.lookup k)) := by
  induction kvs with
  | nil => simp [setKey]
  | cons kv kvs ih =>
    obtain ⟨k', v⟩ := kv
    by_cases h : k = k'
    · simp [setKey, h]
    · have hb : (k == k') = false := by simpa using h
      simp [setKey, h, List.lookup_cons, hb, ih]

theorem lookup_setKey_ne (h : k' ≠ k) : (setKey k f kvs).lookup k' = kvs.lookup k' := by
  induction kvs with
  | nil =>
    have hb : (k' == k) = false := by simpa using h
    simp [setKey, List.lookup_cons, hb]
  | cons kv kvs ih =>
    obtain ⟨k'', v⟩ := kv
    by_cases hk : k = k''
    · have hb : (k' == k'') = false := by simpa [← hk] using h
      simp [setKey, hk, List.lookup_cons, hb]
    · simp [setKey, hk, List.lookup_cons, ih]

/-- A key that is there stays the only one of its name. -/
theorem mem_setKey {kv : String × Toml} (hk : (kvs.lookup k).isSome) (h : kv ∈ setKey k f kvs) :
    ∃ v, (kv.1, v) ∈ kvs := by
  induction kvs with
  | nil => cases hk
  | cons kv' kvs ih =>
    obtain ⟨k', v⟩ := kv'
    by_cases hkk : k = k'
    · rw [setKey, if_pos hkk] at h
      rcases List.mem_cons.1 h with rfl | h
      · exact ⟨v, List.mem_cons_self⟩
      · exact ⟨kv.2, List.mem_cons_of_mem _ h⟩
    · rw [setKey, if_neg hkk] at h
      have hb : (k == k') = false := by simpa using hkk
      rw [List.lookup_cons, hb] at hk
      rcases List.mem_cons.1 h with rfl | h
      · exact ⟨v, List.mem_cons_self⟩
      · obtain ⟨v', hv'⟩ := ih hk h
        exact ⟨v', List.mem_cons_of_mem _ hv'⟩

theorem getElem?_setIndex_self (h : i ≤ vs.length) : (setIndex i f vs)[i]? = some (f vs[i]?) := by
  unfold setIndex
  split
  · rename_i hi
    subst hi
    simp
  · have hlt : i < vs.length := by omega
    simp [hlt]

theorem getElem?_setIndex_ne (h : j ≠ i) : (setIndex i f vs)[j]? = vs[j]? := by
  unfold setIndex
  split
  · rename_i hi
    subst hi
    rcases Nat.lt_or_gt_of_ne h with hlt | hgt
    · exact List.getElem?_append_left hlt
    · rw [List.getElem?_eq_none (by simp; omega), List.getElem?_eq_none (by omega)]
  · rw [List.getElem?_modify]
    simp [Ne.symm h]

theorem length_setIndex (h : i < vs.length) : (setIndex i f vs).length = vs.length := by
  rw [setIndex, if_neg (by omega), List.length_modify]

theorem get?_nil : t.get? [] = some t := by
  cases t <;> rfl

theorem put_nil : t.put [] w = w := by
  cases t <;> rfl

theorem get?_key : t.get? (.key k :: p) = (t.entries.lookup k).bind fun v => v.get? p := by
  cases t <;> rfl

theorem get?_singleton : t.get? [.key k] = t.entries.lookup k := by
  rw [get?_key]
  cases t.entries.lookup k with
  | none => rfl
  | some v => exact get?_nil

/-- There is nothing in a plain value. -/
theorem Toml.IsPlain.get?_eq {s : TomlStep} (h : t.IsPlain) : t.get? (s :: p) = none := by
  cases t with
  | array vs => cases h
  | table kvs => cases h
  | _ => cases s <;> rfl

theorem Toml.IsPlain.get?_concat {s : TomlStep} (h : t.IsPlain) : t.get? (p ++ [s]) = none := by
  cases p with
  | nil => exact h.get?_eq
  | cons s' p => exact h.get?_eq

/-- Only tables and arrays have something in them. -/
theorem container_of_get? {s : TomlStep} (h : t.get? (p ++ [s]) = some x) :
    (∃ kvs, t = .table kvs) ∨ ∃ vs, t = .array vs := by
  cases t with
  | table kvs => exact Or.inl ⟨kvs, rfl⟩
  | array vs => exact Or.inr ⟨vs, rfl⟩
  | string | integer | float | boolean | datetime => rw [Toml.IsPlain.get?_concat (by trivial)] at h; cases h

/-- A path is followed step by step. -/
theorem get?_append : t.get? (p ++ q) = (t.get? p).bind fun v => v.get? q := by
  induction p generalizing t with
  | nil => rw [List.nil_append, get?_nil, Option.bind_some]
  | cons s p ih =>
    cases t with
    | table kvs =>
      cases s with
      | key k =>
        simp only [List.cons_append, Toml.get?, Option.bind_assoc]
        exact Option.bind_congr fun v _ => ih
      | index i => rfl
    | array vs =>
      cases s with
      | key k => rfl
      | index i =>
        simp only [List.cons_append, Toml.get?, Option.bind_assoc]
        exact Option.bind_congr fun v _ => ih
    | _ => cases s <;> rfl

/-- What is found where a value was written is that value. -/
theorem eq_of_get?_put (h : (t.put p w).get? p = some x) : x = w := by
  induction p generalizing t with
  | nil =>
    rw [put_nil, get?_nil] at h
    exact (Option.some.inj h).symm
  | cons s p ih =>
    cases t with
    | table kvs =>
      cases s with
      | key k =>
        simp only [Toml.put, Toml.get?, lookup_setKey_self, Option.bind_some] at h
        exact ih h
      | index i => cases h
    | array vs =>
      cases s with
      | key k => cases h
      | index i =>
        simp only [Toml.put, Toml.get?] at h
        rcases Nat.lt_or_ge vs.length i with hlt | hle
        · rw [setIndex, if_neg (by omega), List.getElem?_eq_none (by simpa using hlt.le)] at h
          cases h
        · rw [getElem?_setIndex_self hle] at h
          exact ih h
    | _ => cases s <;> cases h

/-- A plain value stays where it is when something is written where nothing was. -/
theorem get?_put_of_none (ht : t.get? p = none) (hx : x.IsPlain) (h : t.get? q = some x) :
    (t.put p w).get? q = some x := by
  induction p generalizing t q with
  | nil =>
    rw [get?_nil] at ht
    cases ht
  | cons s p ih =>
    cases q with
    | nil =>
      rw [get?_nil] at h
      have htx : t = x := Option.some.inj h
      subst htx
      cases t with
      | table kvs => cases hx
      | array vs => cases hx
      | _ => cases s <;> rfl
    | cons s' q =>
      cases t with
      | table kvs =>
        cases s' with
        | index i => cases h
        | key k' =>
          cases s with
          | index i => exact h
          | key k =>
            simp only [Toml.get?, Toml.put] at ht h ⊢
            by_cases hk : k' = k
            · subst hk
              obtain ⟨v, hv, hq⟩ := Option.bind_eq_some_iff.1 h
              rw [hv, Option.bind_some] at ht
              rw [lookup_setKey_self, hv, Option.bind_some, Option.getD_some]
              exact ih ht hq
            · rw [lookup_setKey_ne hk]
              exact h
      | array vs =>
        cases s' with
        | key k => cases h
        | index j =>
          cases s with
          | key k => exact h
          | index i =>
            simp only [Toml.get?, Toml.put] at ht h ⊢
            by_cases hj : j = i
            · subst hj
              obtain ⟨v, hv, hq⟩ := Option.bind_eq_some_iff.1 h
              rw [hv, Option.bind_some] at ht
              obtain ⟨hlt, -⟩ := List.getElem?_eq_some_iff.1 hv
              rw [getElem?_setIndex_self hlt.le, hv, Option.bind_some, Option.getD_some]
              exact ih ht hq
            · rw [getElem?_setIndex_ne hj]
              exact h
      | _ => cases s' <;> cases h

/-! ## Assignments and their places -/

variable {a b : Assembly} {s : Statement} {doc : List Statement}

/-- A statement writes only where nothing was. -/
theorem step_tree (h : a.step s = .ok b) : b.tree = a.tree ∨ ∃ p w, a.tree.get? p = none ∧ b.tree = a.tree.put p w := by
  cases s with
  | header ks =>
    cases h
    simp only
    split
    · exact Or.inl rfl
    · rename_i hnone
      exact Or.inr ⟨_, _, Option.not_isSome_iff_eq_none.1 hnone, rfl⟩
  | arrayHeader ks k =>
    simp only [Assembly.step] at h
    split at h
    · rename_i hnone
      cases h
      exact Or.inr ⟨_, _, hnone, rfl⟩
    · rename_i vs hvs
      cases h
      refine Or.inr ⟨_, _, ?_, rfl⟩
      rw [get?_append, hvs, Option.bind_some]
      simp [Toml.get?]
    · cases h
  | assign ks k v =>
    simp only [Assembly.step] at h
    split at h
    · cases h
    · rename_i hnone
      split at h
      · cases h
      · cases h
        exact Or.inr ⟨_, _, Option.not_isSome_iff_eq_none.1 hnone, rfl⟩

/-- A plain value of the tree stays where it is. -/
theorem get?_step (h : a.step s = .ok b) (hx : x.IsPlain) (hq : a.tree.get? q = some x) : b.tree.get? q = some x := by
  rcases step_tree h with htree | ⟨p, w, hnone, htree⟩
  · rw [htree]
    exact hq
  · rw [htree]
    exact get?_put_of_none hnone hx hq

/-- An assignment writes its value into the table of the header above it. -/
theorem get?_assign {ks : List String} (h : a.step (.assign ks k v) = .ok b) :
    b.tree.get? (a.header ++ ks.map .key ++ [.key k]) = some v := by
  simp only [Assembly.step] at h
  split at h
  · cases h
  · split at h
    · cases h
    · rename_i hsome
      cases h
      obtain ⟨x, hx⟩ := Option.ne_none_iff_exists'.1 (mt Option.isNone_iff_eq_none.2 hsome)
      exact hx.trans (congrArg some (eq_of_get?_put hx))

/-- A plain value of the tree stays where it is, whatever statements follow. -/
theorem get?_foldlM (h : doc.foldlM Assembly.step a = .ok b) (hx : x.IsPlain) (hq : a.tree.get? q = some x) :
    b.tree.get? q = some x := by
  induction doc generalizing a with
  | nil =>
    cases h
    exact hq
  | cons s doc ih =>
    rw [List.foldlM_cons] at h
    cases hs : a.step s with
    | error e =>
      rw [hs] at h
      cases h
    | ok c =>
      rw [hs] at h
      exact ih h (get?_step hs hx hq)

/-- What an assignment assigns is found in the tree, as far as it is plain. -/
theorem assign_path {ks : List String} (h : doc.foldlM Assembly.step a = .ok b) (hmem : .assign ks k v ∈ doc)
    (hx : x.IsPlain) (hv : v.get? q = some x) : ∃ p, b.tree.get? (p ++ [.key k] ++ q) = some x := by
  induction doc generalizing a with
  | nil => cases hmem
  | cons s doc ih =>
    rw [List.foldlM_cons] at h
    cases hs : a.step s with
    | error e =>
      rw [hs] at h
      cases h
    | ok c =>
      rw [hs] at h
      rcases List.mem_cons.1 hmem with rfl | hmem
      · have hc : c.tree.get? (a.header ++ ks.map .key ++ [.key k] ++ q) = some x := by
          rw [get?_append, get?_assign hs, Option.bind_some, hv]
        exact ⟨_, get?_foldlM h hx hc⟩
      · exact ih h hmem

/-- **Every assignment of a plain value is found in the tree**, at the end of some path. -/
theorem contains_path (h : assemble doc = .ok t) (hx : x.IsPlain) (hc : Contains doc k x) :
    ∃ p, t.get? (p ++ [.key k]) = some x := by
  rw [assemble] at h
  cases hb : doc.foldlM Assembly.step ⟨.table [], []⟩ with
  | error e =>
    rw [hb] at h
    cases h
  | ok b =>
    rw [hb] at h
    cases h
    cases hc with
    | statement ks hmem =>
      obtain ⟨p, hp⟩ := assign_path hb hmem hx (get?_nil (t := x))
      exact ⟨p, by rwa [List.append_nil] at hp⟩
    | inline ks k' v p hmem hv =>
      obtain ⟨p', hp'⟩ := assign_path hb hmem hx hv
      exact ⟨p' ++ [.key k'] ++ p, by rwa [← List.append_assoc] at hp'⟩

end DdnsIpv6

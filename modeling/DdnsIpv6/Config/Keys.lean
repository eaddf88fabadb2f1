import DdnsIpv6.Config.Document

/-!
# Keys that are read

What the deserializers read of a value: of a struct its fields (`ReadsFields`), of a tagged enum the fields of the
variant that the tag selects (`Tagged`), of a list what is read of its elements. A condition is `Exact` for a
deserializer if the accepted values that meet it are those in which every key is read.
-/

namespace DdnsIpv6

/-! ## Known keys -/

/-- A value with no key in it, at any depth. -/
def Toml.Keyless (v : Toml) : Prop := ∀ (p : List TomlStep) (k : String), v.get? (p ++ [.key k]) = none

/-- A table has no other keys than these. In an array, which is read by position, what is left over has no keys. -/
def Toml.OnlyKeys (names : List String) : Toml → Prop
  | .table kvs => ∀ kv ∈ kvs, kv.1 ∈ names
  | .array vs => ∀ v ∈ vs.drop names.length, v.Keyless
  | _ => True

/-- The variant that the tag selects. -/
def Toml.variant (tag : String) (v : Toml) : String :=
  match v.field 0 tag with
  | .ok (some (.string t)) => t
  | _ => ""

/-- The fields of a method of prefix detection. -/
def prefixFields : String → List String
  | "dns" => ["reference_domain"]
  | "netlink" => ["interface"]
  | "ra" => ["interface"]
  | _ => []

/-- The fields of a DNS provider. -/
def dnsFields : String → List String
  | "cloudflare" => ["zone_id", "api_token"]
  | "rfc2136" => ["server", "key_name", "key_algorithm", "key_secret"]
  | _ => []

/-! ## What the deserializers accept -/

theorem bind_ok {ε α β : Type} {x : Except ε α} {f : α → Except ε β} {b : β} :
    (x >>= f) = .ok b ↔ ∃ a, x = .ok a ∧ f a = .ok b := by
  cases x with
  | error e => simp [bind, Except.bind]
  | ok a => simp [bind, Except.bind]

variable {v v' w x : Toml} {p q : List TomlStep} {k name tag t s : String} {kvs : List (String × Toml)}
  {vs : List Toml} {i n : Nat}

theorem required_ok_iff {α : Type} {de : Toml → Except TomlError α} {a : α} :
    v.required i name de = .ok a ↔ ∃ x, v.field i name = .ok (some x) ∧ de x = .ok a := by
  rw [Toml.required, bind_ok]
  constructor
  · rintro ⟨o, ho, h⟩
    cases o with
    | none => cases h
    | some x => exact ⟨x, ho, h⟩
  · rintro ⟨x, hx, h⟩
    exact ⟨some x, hx, h⟩

theorem deString_ok_iff : deString v = .ok s ↔ v = .string s := by
  cases v <;> simp [deString]

theorem lookup_filter_ne (h : name ≠ tag) : (kvs.filter fun kv => kv.1 ≠ tag).lookup name = kvs.lookup name := by
  induction kvs with
  | nil => rfl
  | cons kv kvs ih =>
    obtain ⟨k, v⟩ := kv
    by_cases hk : k = tag
    · subst hk
      have hb : (name == k) = false := by simpa using h
      rw [List.filter_cons_of_neg (by simp), ih, List.lookup_cons, hb]
    · rw [List.filter_cons_of_pos (by simpa using hk), List.lookup_cons, List.lookup_cons, ih]

/-- A variant of a tagged enum, whose fields `fs` are strings. -/
structure Tagged (tag t : String) (fs : List (String × String)) (v : Toml) : Prop where
  tag : v.field 0 tag = .ok (some (.string t))
  fields : ∀ f ∈ fs.zipIdx, v.field (f.2 + 1) f.1.1 = .ok (some (.string f.1.2))
  short : ∀ vs, v = .array vs → vs.length ≤ fs.length + 1

/-- The tag and the content are those of the value. -/
theorem splitTag_ok {c : Toml} (h : splitTag tag v = .ok (t, c)) :
    v.field 0 tag = .ok (some (.string t)) ∧ (∀ i name, name ≠ tag → c.field i name = v.field (i + 1) name) ∧
      ∀ n, c.exhausted n = .ok () ↔ ∀ vs, v = .array vs → vs.length ≤ n + 1 := by
  cases v with
  | table kvs =>
    cases ht : kvs.lookup tag with
    | none => simp [splitTag, ht] at h
    | some x =>
      simp only [splitTag, ht, bind_ok, deString_ok_iff, Except.ok.injEq, Prod.mk.injEq] at h
      obtain ⟨s, rfl, rfl, rfl⟩ := h
      refine ⟨by rw [Toml.field, ht], fun i name hne => ?_, fun n => ?_⟩
      · rw [Toml.field, Toml.field, lookup_filter_ne hne]
      · simp [Toml.exhausted]
  | array vs =>
    cases vs with
    | nil => cases h
    | cons x vs =>
      simp only [splitTag, bind_ok, deString_ok_iff, Except.ok.injEq, Prod.mk.injEq] at h
      obtain ⟨s, rfl, rfl, rfl⟩ := h
      refine ⟨rfl, fun i name hne => rfl, fun n => ?_⟩
      simp only [Toml.exhausted, Toml.array.injEq, forall_eq', List.length_cons]
      split
      · simp; omega
      · simp; omega
  | _ => cases h

theorem splitTag_of_field (h : v.field 0 tag = .ok (some (.string t))) : ∃ c, splitTag tag v = .ok (t, c) := by
  cases v with
  | table kvs =>
    have ht : kvs.lookup tag = some (.string t) := by simpa [Toml.field] using h
    exact ⟨_, by simp only [splitTag, ht, deString]; rfl⟩
  | array vs =>
    cases vs with
    | nil => cases h
    | cons x vs =>
      cases h
      exact ⟨_, rfl⟩
  | _ => cases h

/-- The tag of a method and its fields. -/
def RawPrefix.written : RawPrefix → String × List (String × String)
  | dns referenceDomain => ("dns", [("reference_domain", referenceDomain)])
  | netlink interface => ("netlink", [("interface", interface)])
  | ra interface => ("ra", [("interface", interface)])

/-- The tag of a provider and its fields. -/
def RawDns.written : RawDns → String × List (String × String)
  | cloudflare zoneId apiToken => ("cloudflare", [("zone_id", zoneId), ("api_token", apiToken)])
  | rfc2136 server keyName keyAlgorithm keySecret =>
    ("rfc2136", [("server", server), ("key_name", keyName), ("key_algorithm", keyAlgorithm), ("key_secret", keySecret)])

theorem deRawPrefix_ok_iff {a : RawPrefix} :
    deRawPrefix v = .ok a ↔ Tagged "method" a.written.1 a.written.2 v := by
  constructor
  · intro h
    rw [deRawPrefix, bind_ok] at h
    obtain ⟨⟨t, c⟩, hs, h⟩ := h
    obtain ⟨htag, hfield, hshort⟩ := splitTag_ok hs
    split at h <;> rename_i heq
    case h_4 => cases h
    all_goals
      cases heq
      simp only [bind_ok, required_ok_iff, deString_ok_iff, Except.ok.injEq] at h
      obtain ⟨r, ⟨_, hr, rfl⟩, _, hex, rfl⟩ := h
      rw [hfield _ _ (by decide)] at hr
      exact ⟨htag, by simpa [RawPrefix.written] using hr, (hshort 1).1 hex⟩
  · intro h
    obtain ⟨c, hs⟩ := splitTag_of_field h.tag
    obtain ⟨-, hfield, hshort⟩ := splitTag_ok hs
    have hex := (hshort _).2 h.short
    have hfields := h.fields
    rw [deRawPrefix, bind_ok]
    refine ⟨_, hs, ?_⟩
    cases a with
    | dns r | netlink r | ra r =>
      simp only [RawPrefix.written, List.zipIdx_cons, List.zipIdx_nil, List.mem_singleton, forall_eq] at hfields
      rw [← hfield _ _ (by decide)] at hfields
      simp only [RawPrefix.written, bind_ok, required_ok_iff, deString_ok_iff, Except.ok.injEq]
      exact ⟨r, ⟨_, hfields, rfl⟩, (), hex, rfl⟩

theorem deRawDns_ok_iff {a : RawDns} : deRawDns v = .ok a ↔ Tagged "provider" a.written.1 a.written.2 v := by
  constructor
  · intro h
    rw [deRawDns, bind_ok] at h
    obtain ⟨⟨t, c⟩, hs, h⟩ := h
    obtain ⟨htag, hfield, hshort⟩ := splitTag_ok hs
    split at h <;> rename_i heq
    · cases heq
      simp only [bind_ok, required_ok_iff, deString_ok_iff, Except.ok.injEq] at h
      obtain ⟨z, ⟨_, hz, rfl⟩, k, ⟨_, hk, rfl⟩, _, hex, rfl⟩ := h
      rw [hfield _ _ (by decide)] at hz hk
      exact ⟨htag, by simpa [RawDns.written] using ⟨hz, hk⟩, (hshort 2).1 hex⟩
    · cases heq
      simp only [bind_ok, required_ok_iff, deString_ok_iff, Except.ok.injEq] at h
      obtain ⟨s, ⟨_, hs, rfl⟩, n, ⟨_, hn, rfl⟩, a, ⟨_, ha, rfl⟩, k, ⟨_, hk, rfl⟩, _, hex, rfl⟩ := h
      rw [hfield _ _ (by decide)] at hs hn ha hk
      exact ⟨htag, by simpa [RawDns.written] using ⟨hs, hn, ha, hk⟩, (hshort 4).1 hex⟩
    · cases h
  · intro h
    obtain ⟨c, hs⟩ := splitTag_of_field h.tag
    obtain ⟨-, hfield, hshort⟩ := splitTag_ok hs
    have hex := (hshort _).2 h.short
    have hfields := h.fields
    rw [deRawDns, bind_ok]
    refine ⟨_, hs, ?_⟩
    cases a with
    | cloudflare z k =>
      simp only [RawDns.written, List.zipIdx_cons, List.zipIdx_nil, List.mem_cons, List.not_mem_nil, or_false,
        forall_eq_or_imp, forall_eq] at hfields
      obtain ⟨hz, hk⟩ := hfields
      rw [← hfield _ _ (by decide)] at hz hk
      simp only [RawDns.written, bind_ok, required_ok_iff, deString_ok_iff, Except.ok.injEq]
      exact ⟨z, ⟨_, hz, rfl⟩, k, ⟨_, hk, rfl⟩, (), hex, rfl⟩
    | rfc2136 s n a k =>
      simp only [RawDns.written, List.zipIdx_cons, List.zipIdx_nil, List.mem_cons, List.not_mem_nil, or_false,
        forall_eq_or_imp, forall_eq] at hfields
      obtain ⟨hs, hn, ha, hk⟩ := hfields
      rw [← hfield _ _ (by decide)] at hs hn ha hk
      simp only [RawDns.written, bind_ok, required_ok_iff, deString_ok_iff, Except.ok.injEq]
      exact ⟨s, ⟨_, hs, rfl⟩, n, ⟨_, hn, rfl⟩, a, ⟨_, ha, rfl⟩, k, ⟨_, hk, rfl⟩, (), hex, rfl⟩

/-! ## Exact conditions -/

/-- `Known` tells exactly of the accepted values whether every key in them is read: a change of the value of the key
may lead to a refusal. If it fails, there is a key whose value does not matter. All keys are among `keys`. -/
structure Exact {α : Type} (Accepts : α → Toml → Prop) (Known : Toml → Prop) (keys : List String) : Prop where
  known : ∀ {a v q k}, Accepts a v → Known v → (v.get? (q ++ [.key k])).isSome → k ∈ keys
  read : ∀ {a v q k}, Accepts a v → Known v → (v.get? (q ++ [.key k])).isSome →
    ∃ w, ∀ b, ¬Accepts b (v.put (q ++ [.key k]) w)
  unread : ∀ {a v}, Accepts a v → ¬Known v →
    ∃ q k, (v.get? (q ++ [.key k])).isSome ∧ ∀ w, Accepts a (v.put (q ++ [.key k]) w)

/-- Two tables, or two arrays of one length, with the same fields. -/
inductive SameFields (names : List String) : Toml → Toml → Prop
  | table {kvs kvs' : List (String × Toml)} (h : ∀ k ∈ names, kvs'.lookup k = kvs.lookup k) :
      SameFields names (.table kvs) (.table kvs')
  | array {vs vs' : List Toml} (hlen : vs'.length = vs.length) (h : ∀ i < names.length, vs'[i]? = vs[i]?) :
      SameFields names (.array vs) (.array vs')

variable {names : List String}

theorem SameFields.field (h : SameFields names v v') (hi : names[i]? = some name) :
    v'.field i name = v.field i name := by
  obtain ⟨hlt, rfl⟩ := List.getElem?_eq_some_iff.1 hi
  cases h with
  | table h => rw [Toml.field, Toml.field, h _ (List.getElem_mem hlt)]
  | array hlen h => rw [Toml.field, Toml.field, h i hlt]

/-- A string or a boolean: what the fields of the tables are. -/
def Toml.IsText (v : Toml) : Prop := (∃ s, v = .string s) ∨ ∃ b, v = .boolean b

theorem Toml.IsText.plain (h : v.IsText) : v.IsPlain := by
  rcases h with ⟨s, rfl⟩ | ⟨b, rfl⟩ <;> trivial

/-- A deserializer of a struct reads these fields and nothing else. -/
structure ReadsFields {α : Type} (de : Toml → Except TomlError α) (names : Toml → List String) : Prop where
  congr : ∀ {a v v'}, de v = .ok a → SameFields (names v) v v' → de v' = .ok a
  text : ∀ {a v i name x}, de v = .ok a → (names v)[i]? = some name → v.field i name = .ok (some x) → x.IsText
  float : ∀ {v k}, k ∈ names v → k ∈ names (v.put [.key k] (.float ""))

section Fields

variable {α : Type} {de : Toml → Except TomlError α} {names : Toml → List String} {a : α}

/-- A key in a value that has only known ones is a field of it. -/
theorem ReadsFields.key_place (h : ReadsFields de names) (hv : de v = .ok a) (hknown : v.OnlyKeys (names v))
    (hk : v.get? (q ++ [.key k]) = some x) : q = [] ∧ ∃ kvs, v = .table kvs ∧ k ∈ names v := by
  -- there is nothing in a field
  have hfield : ∀ {i name y q'}, (names v)[i]? = some name → v.field i name = .ok (some y) →
      y.get? (q' ++ [.key k]) ≠ some x := by
    intro i name y q' hi hy
    rw [(h.text hv hi hy).plain.get?_concat]
    exact (Option.some_ne_none x).symm
  rcases container_of_get? hk with ⟨kvs, rfl⟩ | ⟨vs, rfl⟩
  · have hmem : ∀ {k y}, kvs.lookup k = some y → k ∈ names (.table kvs) := by
      intro k y hy
      obtain ⟨l₁, l₂, rfl, -⟩ := List.lookup_eq_some_iff.1 hy
      exact hknown (k, y) (by simp)
    cases q with
    | nil =>
      obtain ⟨y, hy, -⟩ := Option.bind_eq_some_iff.1 (get?_key.symm.trans hk)
      exact ⟨rfl, kvs, rfl, hmem hy⟩
    | cons s q =>
      cases s with
      | index i => cases hk
      | key k' =>
        obtain ⟨y, hy, hq⟩ := Option.bind_eq_some_iff.1 hk
        obtain ⟨i, hi⟩ := List.mem_iff_getElem?.1 (hmem hy)
        exact absurd hq (hfield hi (by rw [Toml.field, hy]))
  · cases q with
    | nil => cases hk
    | cons s q =>
      cases s with
      | key k' => cases hk
      | index i =>
        obtain ⟨y, hy, hq⟩ := Option.bind_eq_some_iff.1 hk
        rcases Nat.lt_or_ge i (names (.array vs)).length with hlt | hge
        · exact absurd hq (hfield (List.getElem?_eq_getElem hlt) (by rw [Toml.field, hy]))
        · have hrest : y ∈ vs.drop (names (.array vs)).length := by
            rw [List.mem_iff_getElem?]
            exact ⟨i - (names (.array vs)).length, by rw [List.getElem?_drop, Nat.add_sub_cancel' hge, hy]⟩
          cases (hknown y hrest q k).symm.trans hq

/-- **A struct**: the condition is that it has only keys of its fields. -/
theorem ReadsFields.exact (h : ReadsFields de names) {keys : List String} (hkeys : ∀ v, names v ⊆ keys) :
    Exact (fun a v => de v = .ok a) (fun v => v.OnlyKeys (names v)) keys where
  known := by
    intro a v q k hv hknown hk
    obtain ⟨x, hx⟩ := Option.isSome_iff_exists.1 hk
    obtain ⟨-, kvs, -, hmem⟩ := h.key_place hv hknown hx
    exact hkeys v hmem
  read := by
    intro a v q k hv hknown hk
    obtain ⟨x, hx⟩ := Option.isSome_iff_exists.1 hk
    obtain ⟨rfl, kvs, rfl, hmem⟩ := h.key_place hv hknown hx
    refine ⟨.float "", fun b hb => ?_⟩
    obtain ⟨i, hi⟩ := List.mem_iff_getElem?.1 (h.float hmem)
    have hfloat : (Toml.table kvs).put [.key k] (.float "") = .table (setKey k (fun _ => .float "") kvs) := by
      simp only [Toml.put]
    rw [List.nil_append] at hb
    have htext := h.text hb hi (x := .float "") (by rw [hfloat, Toml.field, lookup_setKey_self])
    rcases htext with ⟨s, hs⟩ | ⟨s, hs⟩ <;> cases hs
  unread := by
    intro a v hv hknown
    cases v with
    | table kvs =>
      simp only [Toml.OnlyKeys, not_forall] at hknown
      obtain ⟨kv, hkv, hunknown⟩ := hknown
      refine ⟨[], kv.1, ?_, fun w => h.congr hv (.table fun k hk => lookup_setKey_ne ?_)⟩
      · rw [List.nil_append, get?_singleton, List.lookup_isSome_iff]
        exact ⟨kv, hkv, beq_self_eq_true kv.1⟩
      · rintro rfl
        exact hunknown hk
    | array vs =>
      simp only [Toml.OnlyKeys, Toml.Keyless, not_forall] at hknown
      obtain ⟨y, hy, q, k, hq⟩ := hknown
      obtain ⟨i, hi⟩ := List.mem_iff_getElem?.1 hy
      rw [List.getElem?_drop] at hi
      refine ⟨.index ((names (.array vs)).length + i) :: q, k, ?_, fun w => h.congr hv ?_⟩
      · rw [List.cons_append, Toml.get?, hi, Option.bind_some]
        exact Option.isSome_iff_ne_none.2 hq
      · obtain ⟨hlt, -⟩ := List.getElem?_eq_some_iff.1 hi
        exact .array (length_setIndex hlt) fun j hj => getElem?_setIndex_ne (by omega)
    | _ => exact absurd trivial hknown

end Fields

/-! ## The structs of the configuration -/

theorem field_put_ne (h : name ≠ k) : (v.put [.key k] w).field i name = v.field i name := by
  cases v with
  | table kvs => simp only [Toml.put, Toml.field, lookup_setKey_ne h]
  | _ => rfl

theorem Tagged.congr {fs : List (String × String)} (h : Tagged tag t fs v)
    (hsame : SameFields (tag :: fs.map Prod.fst) v v') : Tagged tag t fs v' := by
  refine ⟨(hsame.field rfl).trans h.tag, fun f hf => ?_, fun vs' hvs' => ?_⟩
  · have hi : (tag :: fs.map Prod.fst)[f.2 + 1]? = some f.1.1 := by
      rw [List.getElem?_cons_succ, List.getElem?_map, List.mem_zipIdx_iff_getElem?.1 hf, Option.map_some]
    exact (hsame.field hi).trans (h.fields f hf)
  · cases hsame with
    | table _ => cases hvs'
    | array hlen _ =>
      cases hvs'
      rw [hlen]
      exact h.short _ rfl

theorem Tagged.text {fs : List (String × String)} (h : Tagged tag t fs v)
    (hi : (tag :: fs.map Prod.fst)[i]? = some name) (hx : v.field i name = .ok (some x)) : x.IsText := by
  cases i with
  | zero =>
    cases hi
    cases h.tag.symm.trans hx
    exact Or.inl ⟨t, rfl⟩
  | succ i =>
    rw [List.getElem?_cons_succ, List.getElem?_map] at hi
    obtain ⟨f, hf, rfl⟩ := Option.map_eq_some_iff.1 hi
    cases (h.fields (f, i) (List.mem_zipIdx_iff_getElem?.2 hf)).symm.trans hx
    exact Or.inl ⟨f.2, rfl⟩

/-- A tagged enum whose variants have string fields. -/
theorem readsFields_of_tagged {α : Type} {de : Toml → Except TomlError α} {fieldsOf : String → List String}
    {written : α → String × List (String × String)}
    (hde : ∀ {v a}, de v = .ok a ↔ Tagged tag (written a).1 (written a).2 v)
    (hfields : ∀ a, fieldsOf (written a).1 = (written a).2.map Prod.fst) :
    ReadsFields de fun v => tag :: fieldsOf (v.variant tag) := by
  have hnames : ∀ {v a}, de v = .ok a → fieldsOf (v.variant tag) = (written a).2.map Prod.fst := by
    intro v a h
    rw [Toml.variant, (hde.1 h).tag, hfields]
  refine ⟨fun {a v v'} h hsame => ?_, fun {a v i name x} h hi hx => ?_, fun {v k} hk => ?_⟩
  · rw [hnames h] at hsame
    exact hde.2 ((hde.1 h).congr hsame)
  · rw [hnames h] at hi
    exact (hde.1 h).text hi hx
  · by_cases htag : k = tag
    · exact htag ▸ List.mem_cons_self
    · rwa [Toml.variant, field_put_ne (Ne.symm htag)]

theorem readsFields_rawPrefix : ReadsFields deRawPrefix fun v => "method" :: prefixFields (v.variant "method") :=
  readsFields_of_tagged deRawPrefix_ok_iff fun a => by cases a <;> rfl

theorem readsFields_rawDns : ReadsFields deRawDns fun v => "provider" :: dnsFields (v.variant "provider") :=
  readsFields_of_tagged deRawDns_ok_iff fun a => by cases a <;> rfl

theorem readsFields_hostEntry : ReadsFields deHostEntry fun _ => ["suffix", "domain"] where
  congr := by
    intro a v v' h hsame
    have hs : v'.field 0 "suffix" = v.field 0 "suffix" := hsame.field rfl
    have hd : v'.field 1 "domain" = v.field 1 "domain" := hsame.field rfl
    rwa [deHostEntry, Toml.required, Toml.required, hs, hd]
  text := by
    intro a v i name x h hi hx
    simp only [deHostEntry, bind_ok, required_ok_iff] at h
    obtain ⟨s, ⟨y, hy, hs⟩, d, ⟨z, hz, hd⟩, -⟩ := h
    rcases i with _ | _ | i
    · cases hi
      cases hy.symm.trans hx
      rw [ipv6addrFromStr, bind_ok] at hs
      obtain ⟨text, htext, -⟩ := hs
      exact Or.inl ⟨text, deString_ok_iff.1 htext⟩
    · cases hi
      cases hz.symm.trans hx
      exact Or.inl ⟨d, deString_ok_iff.1 hd⟩
    · cases hi
  float := fun h => h

theorem orDefault_ok {α : Type} {de : Toml → Except TomlError α} {a d : α} (h : v.orDefault i name d de = .ok a)
    (hx : v.field i name = .ok (some x)) : de x = .ok a := by
  rw [Toml.orDefault, bind_ok] at h
  obtain ⟨o, ho, h⟩ := h
  cases ho.symm.trans hx
  exact h

theorem readsFields_rawDocker : ReadsFields deRawDocker fun _ => ["enabled", "socket_path"] where
  congr := by
    intro a v v' h hsame
    have he : v'.field 0 "enabled" = v.field 0 "enabled" := hsame.field rfl
    have hs : v'.field 1 "socket_path" = v.field 1 "socket_path" := hsame.field rfl
    rwa [deRawDocker, Toml.orDefault, Toml.orDefault, he, hs]
  text := by
    intro a v i name x h hi hx
    simp only [deRawDocker, bind_ok] at h
    obtain ⟨e, he, s, hs, -⟩ := h
    rcases i with _ | _ | i
    · cases hi
      have hbool := orDefault_ok he hx
      cases x with
      | boolean b => exact Or.inr ⟨b, rfl⟩
      | _ => cases hbool
    · cases hi
      exact Or.inl ⟨s, deString_ok_iff.1 (orDefault_ok hs hx)⟩
    · cases hi
  float := fun h => h

/-! ## Lists -/

theorem mapM_ok_iff {α : Type} {de : Toml → Except TomlError α} {as : List α} :
    vs.mapM de = .ok as ↔
      as.length = vs.length ∧ ∀ (i : Nat) v, vs[i]? = some v → ∃ a, as[i]? = some a ∧ de v = .ok a := by
  induction vs generalizing as with
  | nil => cases as <;> simp [pure, Except.pure]
  | cons v vs ih =>
    simp only [List.mapM_cons, bind_ok, ih]
    constructor
    · rintro ⟨a, ha, as', ⟨hlen, has⟩, h⟩
      cases h
      refine ⟨congrArg (· + 1) hlen, fun i u hu => ?_⟩
      cases i with
      | zero =>
        cases hu
        exact ⟨a, rfl, ha⟩
      | succ i => exact has i u hu
    · rintro ⟨hlen, has⟩
      cases as with
      | nil => cases hlen
      | cons a as =>
        obtain ⟨a', ha', hv⟩ := has 0 v rfl
        cases ha'
        exact ⟨a, hv, as, ⟨Nat.succ.inj hlen, fun i u hu => has (i + 1) u hu⟩, rfl⟩

theorem deList_ok_iff {α : Type} {de : Toml → Except TomlError α} {as : List α} :
    deList de v = .ok as ↔ ∃ vs, v = .array vs ∧ vs.mapM de = .ok as := by
  cases v <;> simp [deList]

section Lists

variable {α : Type} {de : Toml → Except TomlError α} {as : List α} {a : α} {y : Toml}

/-- A key in an accepted list is in one of its elements. -/
theorem deList_place (h : deList de v = .ok as) (hk : (v.get? (q ++ [.key k])).isSome) :
    ∃ vs i q' y a, v = .array vs ∧ q = .index i :: q' ∧ vs[i]? = some y ∧ de y = .ok a ∧
      (y.get? (q' ++ [.key k])).isSome := by
  obtain ⟨vs, rfl, has⟩ := deList_ok_iff.1 h
  obtain ⟨x, hx⟩ := Option.isSome_iff_exists.1 hk
  cases q with
  | nil => cases hx
  | cons s q =>
    cases s with
    | key k' => cases hx
    | index i =>
      obtain ⟨y, hy, hq⟩ := Option.bind_eq_some_iff.1 hx
      obtain ⟨a, -, ha⟩ := (mapM_ok_iff.1 has).2 i y hy
      exact ⟨vs, i, q, y, a, rfl, rfl, hy, ha, Option.isSome_of_mem hq⟩

/-- The element that was written has been accepted, -/
theorem accepted_of_deList_put (hy : vs[i]? = some y)
    (h : deList de ((Toml.array vs).put (.index i :: q) w) = .ok as) : ∃ a, de (y.put q w) = .ok a := by
  obtain ⟨vs', hvs', has⟩ := deList_ok_iff.1 h
  cases hvs'
  obtain ⟨hlt, -⟩ := List.getElem?_eq_some_iff.1 hy
  have hnew := getElem?_setIndex_self (f := fun v => (v.getD (.table [])).put q w) hlt.le
  rw [hy, Option.getD_some] at hnew
  obtain ⟨a, -, ha⟩ := (mapM_ok_iff.1 has).2 i _ hnew
  exact ⟨a, ha⟩

/-- and that is all it takes. -/
theorem deList_put (h : deList de (.array vs) = .ok as) (hy : vs[i]? = some y) (ha : as[i]? = some a)
    (hw : de (y.put q w) = .ok a) : deList de ((Toml.array vs).put (.index i :: q) w) = .ok as := by
  obtain ⟨vs', hvs', has⟩ := deList_ok_iff.1 h
  cases hvs'
  obtain ⟨hlen, hall⟩ := mapM_ok_iff.1 has
  obtain ⟨hlt, -⟩ := List.getElem?_eq_some_iff.1 hy
  refine deList_ok_iff.2 ⟨_, rfl, mapM_ok_iff.2 ⟨hlen.trans (length_setIndex hlt).symm, fun j u hu => ?_⟩⟩
  by_cases hj : j = i
  · subst hj
    rw [getElem?_setIndex_self hlt.le, hy] at hu
    cases hu
    exact ⟨a, ha, hw⟩
  · rw [getElem?_setIndex_ne hj] at hu
    exact hall j u hu

/-- **A list**: the condition is that all its elements meet theirs. -/
theorem exact_deList {Known : Toml → Prop} {keys : List String} (h : Exact (fun a v => de v = .ok a) Known keys) :
    Exact (fun as v => deList de v = .ok as) (fun v => ∀ vs, v = .array vs → ∀ x ∈ vs, Known x) keys where
  known := by
    intro as v q k hv hknown hk
    obtain ⟨vs, i, q', y, a, rfl, rfl, hy, ha, hq⟩ := deList_place hv hk
    exact h.known ha (hknown vs rfl y (List.mem_of_getElem? hy)) hq
  read := by
    intro as v q k hv hknown hk
    obtain ⟨vs, i, q', y, a, rfl, rfl, hy, ha, hq⟩ := deList_place hv hk
    obtain ⟨w, hw⟩ := h.read ha (hknown vs rfl y (List.mem_of_getElem? hy)) hq
    refine ⟨w, fun bs hbs => ?_⟩
    obtain ⟨b, hb⟩ := accepted_of_deList_put hy hbs
    exact hw b hb
  unread := by
    intro as v hv hknown
    obtain ⟨vs, rfl, has⟩ := deList_ok_iff.1 hv
    simp only [Toml.array.injEq, forall_eq', not_forall] at hknown
    obtain ⟨y, hy, hunknown⟩ := hknown
    obtain ⟨i, hi⟩ := List.mem_iff_getElem?.1 hy
    obtain ⟨a, ha, hya⟩ := (mapM_ok_iff.1 has).2 i y hi
    obtain ⟨q, k, hq, hsame⟩ := h.unread hya hunknown
    refine ⟨.index i :: q, k, ?_, fun w => deList_put hv hi ha (hsame w)⟩
    rw [List.cons_append, Toml.get?, hi, Option.bind_some]
    exact hq

end Lists

end DdnsIpv6

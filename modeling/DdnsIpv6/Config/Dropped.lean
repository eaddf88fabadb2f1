import DdnsIpv6.Config.Written

/-!
# Dropped settings

What is loaded from a document depends on every key in it and has the values of all of them, and an `interval_secs` is
the interval wherever it stands, exactly if no key is unknown in its place (`nothingDropped_iff`): only the root denies
unknown fields, so that a key below the header of another table is dropped without a word (`interval_dropped`).
-/

namespace DdnsIpv6

/-! ## Known keys -/

/-- The fields of `RawConfig`. -/
inductive RawField where
  | pfx
  | dns
  | hosts
  | intervalSecs
  | docker
  deriving DecidableEq, Repr

def RawField.name : RawField → String
  | pfx => "prefix"
  | dns => "dns"
  | hosts => "hosts"
  | intervalSecs => "interval_secs"
  | docker => "docker"

/-- The value of a field has only keys of its type, or of the variant that its tag selects. -/
def RawField.Known : RawField → Toml → Prop
  | pfx, v => v.OnlyKeys ("method" :: prefixFields (v.variant "method"))
  | dns, v => v.OnlyKeys ("provider" :: dnsFields (v.variant "provider"))
  | hosts, v => ∀ vs, v = .array vs → ∀ h ∈ vs, h.OnlyKeys ["suffix", "domain"]
  | intervalSecs, _ => True
  | docker, v => v.OnlyKeys ["enabled", "socket_path"]

/-- The keys of the root have such values. -/
def Toml.RootKnown (t : Toml) : Prop := ∀ (f : RawField) (v : Toml), t.get? [.key f.name] = some v → f.Known v

/-- No key of the document is unknown where it is. -/
def OnlyKnownKeys (doc : List Statement) : Prop := ∀ t, assemble doc = .ok t → t.RootKnown

/-! ## Settings that are read -/

/-- The configuration that a tree is loaded as. -/
def loadTree (env : String → Option String) (t : Toml) : Except ConfigError ValidatedConfig :=
  ValidatedConfig.load (fun _ => .ok t.entries) env (.ok "")

/-- **No setting is dropped**: what is loaded depends on the value of every key, wherever in the document it is, what
was validated has the value of every key, and an assignment of `interval_secs` anywhere is the interval. -/
structure NothingDropped (env : String → Option String) (doc : List Statement) (cfg : ValidatedConfig) : Prop where
  read : ∀ t, assemble doc = .ok t → ∀ (p : List TomlStep) (k : String), (t.get? (p ++ [.key k])).isSome →
    ∃ w, loadTree env (t.put (p ++ [.key k]) w) ≠ .ok cfg
  carried : ∃ raw, validate env raw = .ok cfg ∧ ∀ t, assemble doc = .ok t → CarriesOver t (.table raw.toToml)
  interval : ∀ n, Contains doc "interval_secs" (.integer n) → (cfg.intervalSecs.toNat : Int) = n


/-! ## The root -/

variable {t v w x : Toml} {p q : List TomlStep} {k : String} {doc doc' : List (String × Toml)} {raw raw' : RawConfig}
  {f g : RawField}

/-- The value of a field, as it is accepted. -/
def RawField.Accepts (raw : RawConfig) : RawField → Toml → Prop
  | pfx, v => deRawPrefix v = .ok raw.pfx
  | dns, v => deRawDns v = .ok raw.dns
  | hosts, v => deList deHostEntry v = .ok raw.hosts
  | intervalSecs, v => deU64 v = .ok raw.intervalSecs
  | docker, v => ∃ d, raw.docker = some d ∧ deRawDocker v = .ok d

/-- The field is not given. -/
def RawField.Absent (raw : RawConfig) : RawField → Prop
  | pfx | dns => False
  | hosts => raw.hosts = []
  | intervalSecs => raw.intervalSecs = defaultInterval
  | docker => raw.docker = none

theorem RawField.name_injective (h : f.name = g.name) : f = g := by
  cases f <;> cases g <;> first | rfl | exact absurd h (by decide)

/-- The names that `deRawConfig` knows. -/
theorem RawField.mem_names :
    k ∈ ["prefix", "dns", "hosts", "interval_secs", "docker"] ↔ ∃ f : RawField, f.name = k := by
  constructor
  · intro h
    simp only [List.mem_cons, List.not_mem_nil, or_false] at h
    rcases h with rfl | rfl | rfl | rfl | rfl
    exacts [⟨.pfx, rfl⟩, ⟨.dns, rfl⟩, ⟨.hosts, rfl⟩, ⟨.intervalSecs, rfl⟩, ⟨.docker, rfl⟩]
  · rintro ⟨f, rfl⟩
    cases f <;> decide

theorem table_required_ok_iff {α : Type} {de : Toml → Except TomlError α} {a : α} {i : Nat} :
    (Toml.table doc).required i k de = .ok a ↔ (doc.lookup k).elim False fun v => de v = .ok a := by
  rw [required_ok_iff, Toml.field]
  cases doc.lookup k <;> simp

theorem table_orDefault_ok_iff {α : Type} {de : Toml → Except TomlError α} {a d : α} {i : Nat} :
    (Toml.table doc).orDefault i k d de = .ok a ↔ (doc.lookup k).elim (a = d) fun v => de v = .ok a := by
  rw [Toml.orDefault, Toml.field]
  cases doc.lookup k <;> simp [bind, Except.bind, eq_comm]

theorem some_map_ok_iff {α ε : Type} {r : Except ε α} {o : Option α} :
    some <$> r = .ok o ↔ ∃ a, o = some a ∧ r = .ok a := by
  cases r <;> simp [eq_comm]

/-- **What `RawConfig` is read from.** -/
theorem deRawConfig_ok_iff : deRawConfig doc = .ok raw ↔
    (∀ kv ∈ doc, ∃ f : RawField, f.name = kv.1) ∧
      ∀ f : RawField, (doc.lookup f.name).elim (f.Absent raw) (f.Accepts raw) := by
  rw [deRawConfig]
  split
  · rename_i kv hkv
    refine ⟨(fun h => nomatch h), fun ⟨hnames, _⟩ => ?_⟩
    have hunknown := List.find?_some hkv
    rw [decide_eq_true_eq, RawField.mem_names] at hunknown
    exact absurd (hnames kv (List.mem_of_find?_eq_some hkv)) hunknown
  · rename_i hnone
    have hnames : ∀ kv ∈ doc, ∃ f : RawField, f.name = kv.1 := by
      intro kv hkv
      rw [← RawField.mem_names]
      simpa only [decide_eq_true_eq, not_not] using List.find?_eq_none.1 hnone kv hkv
    simp only [bind_ok, table_required_ok_iff, table_orDefault_ok_iff, some_map_ok_iff]
    constructor
    · rintro ⟨pfx, hpfx, dns, hdns, hosts, hhosts, secs, hsecs, docker, hdocker, heq⟩
      cases heq
      refine ⟨hnames, fun f => ?_⟩
      cases f with
      | pfx => exact hpfx
      | dns => exact hdns
      | hosts => exact hhosts
      | intervalSecs => exact hsecs
      | docker => exact hdocker
    · rintro ⟨-, hf⟩
      exact ⟨_, hf .pfx, _, hf .dns, _, hf .hosts, _, hf .intervalSecs, _, hf .docker, rfl⟩

/-- No field takes a float. -/
theorem RawField.not_accepts_float : ¬f.Accepts raw (.float "") := by
  cases f with
  | docker =>
    rintro ⟨d, -, h⟩
    cases h
  | _ =>
    intro h
    cases h

/-- The keys below the root. -/
def nestedKeys : List String :=
  ["method", "reference_domain", "interface", "provider", "zone_id", "api_token", "server", "key_name",
    "key_algorithm", "key_secret", "suffix", "domain", "enabled", "socket_path"]

theorem prefixFields_subset (t : String) : "method" :: prefixFields t ⊆ nestedKeys := by
  unfold prefixFields
  split <;> decide

theorem dnsFields_subset (t : String) : "provider" :: dnsFields t ⊆ nestedKeys := by
  unfold dnsFields
  split <;> decide

/-- What is accepted for a part of something is accepted for it. -/
theorem Exact.comp {α β : Type} {Accepts : α → Toml → Prop} {Known : Toml → Prop} {keys : List String}
    (h : Exact Accepts Known keys) (part : β → α) : Exact (fun b v => Accepts (part b) v) Known keys where
  known := h.known
  read := fun ha hknown hk => (h.read ha hknown hk).imp fun _ hw b => hw (part b)
  unread := h.unread

theorem exact_some {α : Type} {Accepts : α → Toml → Prop} {Known : Toml → Prop} {keys : List String}
    (h : Exact Accepts Known keys) : Exact (fun o v => ∃ a, o = some a ∧ Accepts a v) Known keys where
  known := by
    rintro o v q k ⟨a, -, ha⟩
    exact h.known ha
  read := by
    rintro o v q k ⟨a, -, ha⟩ hknown hk
    obtain ⟨w, hw⟩ := h.read ha hknown hk
    exact ⟨w, fun o ⟨b, _, hb⟩ => hw b hb⟩
  unread := by
    rintro o v ⟨a, rfl, ha⟩ hknown
    obtain ⟨q, k, hk, hsame⟩ := h.unread ha hknown
    exact ⟨q, k, hk, fun w => ⟨a, rfl, hsame w⟩⟩

/-- There are no keys in plain values. -/
theorem exact_plain {α : Type} {Accepts : α → Toml → Prop} {keys : List String}
    (h : ∀ {a v}, Accepts a v → v.IsPlain) : Exact Accepts (fun _ => True) keys where
  known := by
    intro a v q k ha _ hk
    rw [(h ha).get?_concat] at hk
    cases hk
  read := by
    intro a v q k ha _ hk
    rw [(h ha).get?_concat] at hk
    cases hk
  unread := fun _ hknown => absurd trivial hknown

/-- **Every field of the root.** -/
theorem RawField.exact : (f : RawField) → Exact f.Accepts f.Known nestedKeys
  | pfx => (readsFields_rawPrefix.exact fun _ => prefixFields_subset _).comp RawConfig.pfx
  | dns => (readsFields_rawDns.exact fun _ => dnsFields_subset _).comp RawConfig.dns
  | hosts => (exact_deList (readsFields_hostEntry.exact fun _ => by decide)).comp RawConfig.hosts
  | intervalSecs => exact_plain fun {_ v} h => by
    cases v with
    | integer n => trivial
    | _ => cases h
  | docker => (exact_some (readsFields_rawDocker.exact fun _ => by decide)).comp RawConfig.docker

/-- A key of an accepted root leads into one of its fields. -/
theorem root_place {s : TomlStep} (h : deRawConfig t.entries = .ok raw) (hx : t.get? (s :: p) = some x) :
    ∃ (f : RawField) (v : Toml), s = .key f.name ∧ t.entries.lookup f.name = some v ∧ v.get? p = some x ∧
      f.Accepts raw v := by
  obtain ⟨hnames, hfields⟩ := deRawConfig_ok_iff.1 h
  cases s with
  | index i =>
    -- the root is a table
    cases t with
    | array vs => cases hfields .pfx
    | _ => cases hx
  | key k =>
    obtain ⟨v, hv, hp⟩ := Option.bind_eq_some_iff.1 (get?_key.symm.trans hx)
    obtain ⟨l₁, l₂, hl, -⟩ := List.lookup_eq_some_iff.1 hv
    obtain ⟨f, rfl⟩ := hnames (k, v) (by rw [hl]; simp)
    have hf := hfields f
    rw [hv] at hf
    exact ⟨f, v, rfl, hv, hp, hf⟩

/-- The fields of a root, with another value written into one of them. -/
theorem lookup_put (hv : t.entries.lookup f.name = some v) :
    (t.put (.key f.name :: p) w).entries.lookup f.name = some (v.put p w) ∧
      (∀ g ≠ f, (t.put (.key f.name :: p) w).entries.lookup g.name = t.entries.lookup g.name) ∧
      ∀ kv ∈ (t.put (.key f.name :: p) w).entries, ∃ u, (kv.1, u) ∈ t.entries := by
  cases t with
  | table doc =>
    have hv : doc.lookup f.name = some v := hv
    refine ⟨?_, fun g hg => ?_, fun kv hkv => mem_setKey (Option.isSome_of_mem hv) hkv⟩
    · simp only [Toml.put, Toml.entries, lookup_setKey_self, hv, Option.getD_some]
    · simp only [Toml.put, Toml.entries]
      exact lookup_setKey_ne fun h => hg (RawField.name_injective h)
  | _ => cases hv

/-- The value that was written has been accepted, -/
theorem accepts_of_put (hv : t.entries.lookup f.name = some v)
    (h : deRawConfig (t.put (.key f.name :: p) w).entries = .ok raw) : f.Accepts raw (v.put p w) := by
  have hf := (deRawConfig_ok_iff.1 h).2 f
  rwa [(lookup_put hv).1] at hf

/-- and that is all it takes. -/
theorem put_of_accepts (hv : t.entries.lookup f.name = some v) (h : deRawConfig t.entries = .ok raw)
    (haccepts : f.Accepts raw (v.put p w)) : deRawConfig (t.put (.key f.name :: p) w).entries = .ok raw := by
  obtain ⟨hnames, hfields⟩ := deRawConfig_ok_iff.1 h
  obtain ⟨hself, hother, hkeys⟩ := lookup_put (p := p) (w := w) hv
  refine deRawConfig_ok_iff.2 ⟨fun kv hkv => ?_, fun g => ?_⟩
  · obtain ⟨u, hu⟩ := hkeys kv hkv
    exact hnames (kv.1, u) hu
  · by_cases hg : g = f
    · subst hg
      rwa [hself]
    · rw [hother g hg]
      exact hfields g

/-- With known keys only, every key is read. -/
theorem root_read (h : deRawConfig t.entries = .ok raw) (hknown : t.RootKnown) (hk : (t.get? (p ++ [.key k])).isSome) :
    ∃ w, ∀ raw', deRawConfig (t.put (p ++ [.key k]) w).entries ≠ .ok raw' := by
  obtain ⟨x, hx⟩ := Option.isSome_iff_exists.1 hk
  cases p with
  | nil =>
    obtain ⟨f, v, hs, hv, -, -⟩ := root_place h hx
    rw [hs]
    refine ⟨.float "", fun raw' h' => ?_⟩
    have hfloat := accepts_of_put hv h'
    rw [put_nil] at hfloat
    exact RawField.not_accepts_float hfloat
  | cons s p =>
    obtain ⟨f, v, rfl, hv, hp, haccepts⟩ := root_place h hx
    obtain ⟨w, hw⟩ := f.exact.read haccepts (hknown f v (get?_singleton.trans hv)) (Option.isSome_of_mem hp)
    exact ⟨w, fun raw' h' => hw raw' (accepts_of_put hv h')⟩

/-- With an unknown key, there is one that is not read. -/
theorem root_unread (h : deRawConfig t.entries = .ok raw) (hunknown : ¬t.RootKnown) :
    ∃ p k, (t.get? (p ++ [.key k])).isSome ∧ ∀ w, deRawConfig (t.put (p ++ [.key k]) w).entries = .ok raw := by
  simp only [Toml.RootKnown, not_forall] at hunknown
  obtain ⟨f, v, hv, hf⟩ := hunknown
  rw [get?_singleton] at hv
  have haccepts := (deRawConfig_ok_iff.1 h).2 f
  rw [hv] at haccepts
  obtain ⟨q, k, hk, hsame⟩ := f.exact.unread haccepts hf
  refine ⟨.key f.name :: q, k, ?_, fun w => put_of_accepts hv h (hsame w)⟩
  rw [List.cons_append, get?_key, hv, Option.bind_some]
  exact hk

theorem toNat_of_deU64 {n : Int} {u : UInt64} (h : deU64 (.integer n) = .ok u) : (u.toNat : Int) = n := by
  rw [deU64] at h
  split at h
  · rename_i hrange
    cases h
    have hlt : n.toNat < 2 ^ 64 := by omega
    rw [UInt64.toNat_ofNat', Nat.mod_eq_of_lt hlt]
    exact Int.toNat_of_nonneg hrange.1
  · cases h

/-- With known keys only, an `interval_secs` is the one of the root. -/
theorem root_interval {n : Int} (h : deRawConfig t.entries = .ok raw) (hknown : t.RootKnown)
    (hx : t.get? (p ++ [.key "interval_secs"]) = some (.integer n)) : (raw.intervalSecs.toNat : Int) = n := by
  cases p with
  | nil =>
    have hlookup : t.entries.lookup RawField.intervalSecs.name = some (.integer n) := get?_singleton.symm.trans hx
    have hfield := (deRawConfig_ok_iff.1 h).2 .intervalSecs
    rw [hlookup] at hfield
    exact toNat_of_deU64 hfield
  | cons s p =>
    obtain ⟨f, v, rfl, hv, hp, haccepts⟩ := root_place h hx
    have hnested := f.exact.known haccepts (hknown f v (get?_singleton.trans hv)) (Option.isSome_of_mem hp)
    exact absurd hnested (by decide)

/-- Only the interval is a plain value. -/
theorem RawField.eq_intervalSecs (h : f.Accepts raw v) (hv : v.IsPlain) : f = intervalSecs := by
  cases f with
  | intervalSecs => rfl
  | docker =>
    obtain ⟨d, -, h⟩ := h
    cases v with
    | table | array => cases hv
    | _ => cases h
  | _ =>
    cases v with
    | table | array => cases hv
    | _ => cases h

/-- With known keys only, every value is carried over. -/
theorem root_carried (h : deRawConfig t.entries = .ok raw) (hknown : t.RootKnown) :
    CarriesOver t (.table raw.toToml) := by
  intro q k x hx hplain
  cases q with
  | nil =>
    obtain ⟨f, v, hs, hv, hp, haccepts⟩ := root_place h hx
    obtain rfl : v = x := Option.some.inj (get?_nil.symm.trans hp)
    cases hs
    obtain rfl := RawField.eq_intervalSecs haccepts hplain
    refine ⟨_, get?_singleton, ?_⟩
    cases v with
    | integer n =>
      rw [← toNat_of_deU64 haccepts]
      exact .refl _ _
    | _ => cases haccepts
  | cons s q =>
    obtain ⟨f, v, rfl, hv, hp, haccepts⟩ := root_place h hx
    have hfield : ∀ {w y}, raw.toToml.lookup f.name = some w → w.get? (q ++ [.key k]) = some y →
        (Toml.table raw.toToml).get? (.key f.name :: q ++ [.key k]) = some y := by
      intro w y hw hy
      rw [List.cons_append, get?_key, Toml.entries, hw, Option.bind_some, hy]
    have hknown : f.Known v := hknown f v (get?_singleton.trans hv)
    cases f with
    | pfx =>
      obtain ⟨y, hy, hsame⟩ := carries_rawPrefix _ v haccepts hknown q k x hp hplain
      exact ⟨y, hfield rfl hy, hsame⟩
    | dns =>
      obtain ⟨y, hy, hsame⟩ := carries_rawDns _ v haccepts hknown q k x hp hplain
      exact ⟨y, hfield rfl hy, hsame⟩
    | hosts =>
      obtain ⟨y, hy, hsame⟩ := carries_deList carries_hostEntry _ v haccepts hknown q k x hp hplain
      exact ⟨y, hfield rfl hy, hsame⟩
    | intervalSecs =>
      cases v with
      | integer n =>
        have hnone : (Toml.integer n).get? (q ++ [.key k]) = none := Toml.IsPlain.get?_concat (by trivial)
        cases hnone.symm.trans hp
      | _ => cases haccepts
    | docker =>
      obtain ⟨d, hd, haccepts⟩ := haccepts
      obtain ⟨y, hy, hsame⟩ := carries_rawDocker _ v haccepts hknown q k x hp hplain
      exact ⟨y, hfield (by rw [RawConfig.toToml, hd]; rfl) hy, hsame⟩

/-! ## Documents -/

theorem loadTree_ok_iff {env : String → Option String} {cfg : ValidatedConfig} :
    loadTree env t = .ok cfg ↔ ∃ raw, deRawConfig t.entries = .ok raw ∧ validate env raw = .ok cfg := by
  rw [loadTree, ValidatedConfig.load]
  cases h : deRawConfig t.entries <;> simp [h]

/-- **No setting of an accepted document is dropped exactly if it has no unknown keys**, whatever the parser makes of
the text is a list of statements. -/
theorem nothingDropped_iff {parse : String → Except String (List (String × Toml))} {env : String → Option String}
    {text : String} {doc : List Statement} {cfg : ValidatedConfig}
    (hparse : parse text = (assemble doc).map Toml.entries)
    (hload : ValidatedConfig.load parse env (.ok text) = .ok cfg) :
    NothingDropped env doc cfg ↔ OnlyKnownKeys doc := by
  obtain ⟨t, ht⟩ : ∃ t, assemble doc = .ok t := by
    cases ha : assemble doc with
    | error e =>
      rw [ha] at hparse
      rw [ValidatedConfig.load, hparse] at hload
      cases hload
    | ok t => exact ⟨t, rfl⟩
  rw [ht] at hparse
  have htree : loadTree env t = .ok cfg := by
    rw [ValidatedConfig.load, hparse] at hload
    exact hload
  obtain ⟨raw, hraw, hvalid⟩ := loadTree_ok_iff.1 htree
  constructor
  · intro hnothing t' ht'
    cases ht.symm.trans ht'
    by_contra hunknown
    obtain ⟨p, k, hk, hsame⟩ := root_unread hraw hunknown
    obtain ⟨w, hw⟩ := hnothing.read t ht p k hk
    exact hw (loadTree_ok_iff.2 ⟨raw, hsame w, hvalid⟩)
  · intro hknown
    refine ⟨fun t' ht' p k hk => ?_, ⟨raw, hvalid, fun t' ht' => ?_⟩, fun n hn => ?_⟩
    · cases ht.symm.trans ht'
      obtain ⟨w, hw⟩ := root_read hraw (hknown t ht) hk
      refine ⟨w, fun hsame => ?_⟩
      obtain ⟨raw', hraw', -⟩ := loadTree_ok_iff.1 hsame
      exact hw raw' hraw'
    · cases ht.symm.trans ht'
      exact root_carried hraw (hknown t ht)
    · obtain ⟨p, hp⟩ := contains_path ht (by trivial) hn
      rw [(validate_kept hvalid).2]
      exact root_interval hraw (hknown t ht) hp

/-- A document in the order of the sample configuration, up to its `interval_secs`. -/
def sampleTables : List Statement :=
  [.header ["prefix"], .assign [] "method" (.string "dns"),
    .assign [] "reference_domain" (.string "my-router.example.com"),
    .header ["dns"], .assign [] "provider" (.string "cloudflare"), .assign [] "zone_id" (.string "abc123"),
    .assign [] "api_token" (.string "test-token"),
    .arrayHeader [] "hosts", .assign [] "suffix" (.string "::1"), .assign [] "domain" (.string "server-a.example.com")]

/-- The text of it. -/
def tablesText : String :=
  "[prefix]\nmethod = \"dns\"\nreference_domain = \"my-router.example.com\"\n\n" ++
  "[dns]\nprovider = \"cloudflare\"\nzone_id = \"abc123\"\napi_token = \"test-token\"\n\n" ++
  "[[hosts]]\nsuffix = \"::1\"\ndomain = \"server-a.example.com\"\n"

def sampleInterval : Statement := .assign [] "interval_secs" (.integer 60)

def intervalText : String := "interval_secs = 60\n"

/-- A parser that knows one text. -/
def parseOne (text : String) (doc : List Statement) (contents : String) : Except String (List (String × Toml)) :=
  if contents = text then (assemble doc).map Toml.entries else .error "invalid document"

theorem parseOne_self (text : String) (doc : List Statement) :
    parseOne text doc text = (assemble doc).map Toml.entries := if_pos rfl

/-- What is loaded, with the given interval. -/
def loadedSample (secs : UInt64) : ValidatedConfig :=
  ⟨.dns "my-router.example.com", .cloudflare "abc123" "test-token",
    [⟨⟨0, 0, 0, 0, 0, 0, 0, 1⟩, "server-a.example.com"⟩], secs, none⟩

/-- The tree of the document, with `interval_secs` above all headers. -/
def sampleTree : Toml :=
  .table [("interval_secs", .integer 60),
    ("prefix", .table [("method", .string "dns"), ("reference_domain", .string "my-router.example.com")]),
    ("dns", .table [("provider", .string "cloudflare"), ("zone_id", .string "abc123"),
      ("api_token", .string "test-token")]),
    ("hosts", .array [.table [("suffix", .string "::1"), ("domain", .string "server-a.example.com")]])]

theorem rootKnown_sampleTree : sampleTree.RootKnown := by
  intro f v hv
  cases f with
  | intervalSecs => trivial
  | docker => cases hv
  | hosts =>
    cases hv
    intro vs hvs h hh
    cases hvs
    cases List.mem_singleton.1 hh
    intro kv hkv
    simp only [List.mem_cons, List.not_mem_nil, or_false] at hkv
    rcases hkv with rfl | rfl <;> decide
  | pfx | dns =>
    cases hv
    simp [RawField.Known, Toml.OnlyKeys, Toml.variant, Toml.field, prefixFields, dnsFields]

/-- There it is read, like everything else. -/
theorem nothingDropped_first :
    ValidatedConfig.load (parseOne (intervalText ++ tablesText) (sampleInterval :: sampleTables)) (fun _ => none)
        (.ok (intervalText ++ tablesText)) = .ok (loadedSample 60) ∧
      NothingDropped (fun _ => none) (sampleInterval :: sampleTables) (loadedSample 60) := by
  have hparse := parseOne_self (intervalText ++ tablesText) (sampleInterval :: sampleTables)
  have hload : ValidatedConfig.load (parseOne (intervalText ++ tablesText) (sampleInterval :: sampleTables))
      (fun _ => none) (.ok (intervalText ++ tablesText)) = .ok (loadedSample 60) := by
    rw [ValidatedConfig.load, hparse]
    rfl
  refine ⟨hload, (nothingDropped_iff hparse hload).2 fun t ht => ?_⟩
  have htree : assemble (sampleInterval :: sampleTables) = .ok sampleTree := rfl
  cases htree.symm.trans ht
  exact rootKnown_sampleTree

/-- **Below the hosts**, where the sample configuration has it, it is a key of the last host, and the interval is the
default. -/
theorem interval_dropped :
    ValidatedConfig.load (parseOne (tablesText ++ intervalText) (sampleTables ++ [sampleInterval])) (fun _ => none)
        (.ok (tablesText ++ intervalText)) = .ok (loadedSample 300) ∧
      ¬NothingDropped (fun _ => none) (sampleTables ++ [sampleInterval]) (loadedSample 300) := by
  refine ⟨?_, fun h => ?_⟩
  · rw [ValidatedConfig.load, parseOne_self]
    rfl
  · have hinterval := h.interval 60 (.statement [] (by simp [sampleInterval]))
    cases hinterval

end DdnsIpv6

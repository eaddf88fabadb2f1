import DdnsIpv6.Config.Dropped
import Mathlib.Data.List.Forall2

/-!
# The order of the keys

The deserializers look keys up, so the order in which the tables of a document have their keys, at any depth, does not
matter to what is loaded (`load_reordered`). Every configuration can be written as a document, and is read back from it
and from all documents that are equal to it but for the order (`deRawConfig_encode`).
-/

namespace DdnsIpv6

open Lib

/-- The same values under the same keys, in any order, at any depth. -/
inductive Toml.Reordered : Toml → Toml → Prop
  | same (v : Toml) : Reordered v v
  | array {vs ws : List Toml} (elements : List.Forall₂ Reordered vs ws) : Reordered (.array vs) (.array ws)
  | table {kvs kws : List (String × Toml)} (values : ∀ k, Option.Rel Reordered (kvs.lookup k) (kws.lookup k)) :
    Reordered (.table kvs) (.table kws)

variable {v w : Toml} {kvs kws doc doc' : List (String × Toml)} {name k : String} {i : Nat}

/-- A table whose keys are in another order. -/
theorem reordered_of_perm (h : kvs.Perm kws) (hnd : (kvs.map Prod.fst).Nodup) :
    Toml.Reordered (.table kvs) (.table kws) := by
  have hlookup : ∀ k, kvs.lookup k = kws.lookup k := fun k => by
    induction h with
    | nil => rfl
    | cons kv _ ih =>
      rw [List.map_cons, List.nodup_cons] at hnd
      rw [List.lookup_cons, List.lookup_cons, ih hnd.2]
    | swap kv kv' kvs =>
      -- of two different keys at most one is looked up
      obtain ⟨k₁, v₁⟩ := kv
      obtain ⟨k₂, v₂⟩ := kv'
      rw [List.map_cons, List.map_cons, List.nodup_cons, List.mem_cons, not_or] at hnd
      simp only [List.lookup_cons]
      by_cases hk : k = k₁
      · have hk' : k ≠ k₂ := fun he => hnd.1.1 (he.symm.trans hk)
        rw [beq_iff_eq.2 hk, beq_eq_false_iff_ne.2 hk']
      · rw [beq_eq_false_iff_ne.2 hk]
    | trans h₁ _ ih₁ ih₂ => exact (ih₁ hnd).trans (ih₂ ((h₁.map _).nodup_iff.1 hnd))
  refine .table fun k => ?_
  rw [hlookup k]
  cases kws.lookup k with
  | none => exact .none
  | some v => exact .some (.same v)

/-- A table whose values have their keys in another order. -/
theorem reordered_of_values (h : List.Forall₂ (fun kv kw => kv.1 = kw.1 ∧ Toml.Reordered kv.2 kw.2) kvs kws) :
    Toml.Reordered (.table kvs) (.table kws) := by
  refine .table fun k => ?_
  induction h with
  | nil => exact .none
  | @cons kv kw kvs kws hkv _ ih =>
    obtain ⟨k₁, v⟩ := kv
    obtain ⟨k₂, w⟩ := kw
    obtain ⟨rfl, hvw⟩ := hkv
    rw [List.lookup_cons, List.lookup_cons]
    cases k == k₁ with
    | true => exact .some hvw
    | false => exact ih

/-! ## Readers -/

theorem deString_reordered (h : v.Reordered w) : deString v = deString w := by
  cases h <;> rfl

theorem deBool_reordered (h : v.Reordered w) : deBool v = deBool w := by
  cases h <;> rfl

theorem deU64_reordered (h : v.Reordered w) : deU64 v = deU64 w := by
  cases h <;> rfl

/-- Elements at one index. -/
theorem rel_getElem? {R : Toml → Toml → Prop} {vs ws : List Toml} (h : List.Forall₂ R vs ws) (i : Nat) :
    Option.Rel R vs[i]? ws[i]? := by
  induction h generalizing i with
  | nil => exact .none
  | cons hxy _ ih =>
    cases i with
    | zero => exact .some hxy
    | succ i => exact ih i

/-- A field of one is the same field of the other. -/
theorem Toml.Reordered.field (h : v.Reordered w) (i : Nat) (name : String) :
    (∃ e, v.field i name = .error e ∧ w.field i name = .error e) ∨
      ∃ x y, v.field i name = .ok x ∧ w.field i name = .ok y ∧ Option.Rel Toml.Reordered x y := by
  have hrefl : ∀ o : Option Toml, Option.Rel Toml.Reordered o o := fun o => by
    cases o with
    | none => exact .none
    | some v => exact .some (.same v)
  cases h with
  | same v =>
    cases hv : v.field i name with
    | error e => exact Or.inl ⟨e, rfl, rfl⟩
    | ok x => exact Or.inr ⟨x, x, rfl, rfl, hrefl x⟩
  | array elements => exact Or.inr ⟨_, _, rfl, rfl, rel_getElem? elements i⟩
  | table values => exact Or.inr ⟨_, _, rfl, rfl, values name⟩

section Fields

variable {α : Type} {de : Toml → Except TomlError α}

theorem required_reordered (hde : ∀ x y, x.Reordered y → de x = de y) (h : v.Reordered w) (i : Nat) (name : String) :
    v.required i name de = w.required i name de := by
  rcases h.field i name with ⟨e, hv, hw⟩ | ⟨x, y, hv, hw, hxy⟩
  · rw [Toml.required, Toml.required, hv, hw]
  · rw [Toml.required, Toml.required, hv, hw]
    cases hxy with
    | none => rfl
    | some hxy => exact hde _ _ hxy

theorem orDefault_reordered (hde : ∀ x y, x.Reordered y → de x = de y) (h : v.Reordered w) (i : Nat) (name : String)
    (default : α) : v.orDefault i name default de = w.orDefault i name default de := by
  rcases h.field i name with ⟨e, hv, hw⟩ | ⟨x, y, hv, hw, hxy⟩
  · rw [Toml.orDefault, Toml.orDefault, hv, hw]
  · rw [Toml.orDefault, Toml.orDefault, hv, hw]
    cases hxy with
    | none => rfl
    | some hxy => exact hde _ _ hxy

theorem deList_reordered (hde : ∀ x y, x.Reordered y → de x = de y) (h : v.Reordered w) :
    deList de v = deList de w := by
  cases h with
  | same => rfl
  | table => rfl
  | array elements =>
    rw [deList, deList]
    induction elements with
    | nil => rfl
    | cons hxy _ ih => rw [List.mapM_cons, List.mapM_cons, hde _ _ hxy, ih]

end Fields

theorem ipv6addrFromStr_reordered (h : v.Reordered w) : ipv6addrFromStr v = ipv6addrFromStr w := by
  rw [ipv6addrFromStr, ipv6addrFromStr, deString_reordered h]

theorem deHostEntry_reordered (h : v.Reordered w) : deHostEntry v = deHostEntry w := by
  rw [deHostEntry, deHostEntry, required_reordered (fun _ _ => ipv6addrFromStr_reordered) h,
    required_reordered (fun _ _ => deString_reordered) h]

theorem deRawDocker_reordered (h : v.Reordered w) : deRawDocker v = deRawDocker w := by
  rw [deRawDocker, deRawDocker, orDefault_reordered (fun _ _ => deBool_reordered) h,
    orDefault_reordered (fun _ _ => deString_reordered) h]

/-- A variant of a tagged enum. -/
theorem tagged_reordered {tag t : String} {fs : List (String × String)} (h : v.Reordered w) :
    Tagged tag t fs v ↔ Tagged tag t fs w := by
  have hfield : ∀ i name s, v.field i name = .ok (some (.string s)) ↔ w.field i name = .ok (some (.string s)) := by
    intro i name s
    rcases h.field i name with ⟨e, hv, hw⟩ | ⟨x, y, hv, hw, hxy⟩
    · rw [hv, hw]
    · rw [hv, hw]
      cases hxy with
      | none => exact Iff.rfl
      | some hxy =>
        cases hxy with
        | same => exact Iff.rfl
        | array | table => exact ⟨(fun h => nomatch h), fun h => nomatch h⟩
  have hshort : (∀ vs, v = .array vs → vs.length ≤ fs.length + 1) ↔
      ∀ vs, w = .array vs → vs.length ≤ fs.length + 1 := by
    cases h with
    | same => exact Iff.rfl
    | array elements => simp only [Toml.array.injEq, forall_eq', elements.length_eq]
    | table => exact ⟨(fun _ _ h => nomatch h), fun _ _ h => nomatch h⟩
  exact ⟨fun ⟨htag, hfs, hs⟩ => ⟨(hfield _ _ _).1 htag, fun f hf => (hfield _ _ _).1 (hfs f hf), hshort.1 hs⟩,
    fun ⟨htag, hfs, hs⟩ => ⟨(hfield _ _ _).2 htag, fun f hf => (hfield _ _ _).2 (hfs f hf), hshort.2 hs⟩⟩

/-! ## Documents -/

/-- The value of a field. -/
theorem RawField.accepts_reordered {raw : RawConfig} (f : RawField) (h : v.Reordered w) :
    f.Accepts raw v ↔ f.Accepts raw w := by
  cases f with
  | pfx => simp only [RawField.Accepts, deRawPrefix_ok_iff, tagged_reordered h]
  | dns => simp only [RawField.Accepts, deRawDns_ok_iff, tagged_reordered h]
  | hosts => rw [RawField.Accepts, RawField.Accepts, deList_reordered (fun _ _ => deHostEntry_reordered) h]
  | intervalSecs => rw [RawField.Accepts, RawField.Accepts, deU64_reordered h]
  | docker => simp only [RawField.Accepts, deRawDocker_reordered h]

/-- The values in tables. -/
theorem Toml.Reordered.lookup (h : (Toml.table kvs).Reordered (.table kws)) (k : String) :
    Option.Rel Toml.Reordered (kvs.lookup k) (kws.lookup k) := by
  rcases h.field 0 k with ⟨e, hv, -⟩ | ⟨x, y, hv, hw, hxy⟩
  · cases hv
  · cases hv
    cases hw
    exact hxy

/-- The keys of a table. -/
theorem forall_keys_iff {P : String → Prop} : (∀ kv ∈ kvs, P kv.1) ↔ ∀ k, (kvs.lookup k).isSome = true → P k := by
  simp only [List.lookup_isSome_iff, beq_iff_eq]
  constructor
  · rintro h k ⟨kv, hkv, rfl⟩
    exact h kv hkv
  · exact fun h kv hkv => h kv.1 ⟨kv, hkv, rfl⟩

/-- **The order of the keys does not matter** to what is read from a document. -/
theorem deRawConfig_reordered {raw : RawConfig} (h : ∀ k, Option.Rel Toml.Reordered (doc.lookup k) (doc'.lookup k)) :
    deRawConfig doc = .ok raw ↔ deRawConfig doc' = .ok raw := by
  have hsome : ∀ k, (doc.lookup k).isSome = (doc'.lookup k).isSome := fun k => by
    have hk := h k
    generalize doc.lookup k = x at hk ⊢
    generalize doc'.lookup k = y at hk ⊢
    cases hk <;> rfl
  rw [deRawConfig_ok_iff, deRawConfig_ok_iff, forall_keys_iff (P := fun k => ∃ f : RawField, f.name = k),
    forall_keys_iff (P := fun k => ∃ f : RawField, f.name = k)]
  refine and_congr (by simp only [hsome]) (forall_congr' fun f => ?_)
  have hf := h f.name
  generalize doc.lookup f.name = x at hf ⊢
  generalize doc'.lookup f.name = y at hf ⊢
  cases hf with
  | none => exact Iff.rfl
  | some hxy => exact f.accepts_reordered hxy

theorem toOption_eq_iff {ε α : Type} {x y : Except ε α} : x.toOption = y.toOption ↔ ∀ a, x = .ok a ↔ y = .ok a := by
  cases x <;> cases y <;> simp [Except.toOption, eq_comm]

/-- **The order of the keys does not matter** to what is loaded: two documents that are equal but for the order of the
keys of their tables, at any depth, give the same configuration, or are both rejected. -/
theorem load_reordered (parse : String → Except String (List (String × Toml))) (env : String → Option String)
    {text text' : String} (hp : parse text = .ok doc) (hp' : parse text' = .ok doc')
    (h : (Toml.table doc).Reordered (.table doc')) :
    (ValidatedConfig.load parse env (.ok text)).toOption = (ValidatedConfig.load parse env (.ok text')).toOption := by
  have hraw : ∀ raw, deRawConfig doc = .ok raw ↔ deRawConfig doc' = .ok raw := fun raw =>
    deRawConfig_reordered h.lookup
  have hload : ∀ {text : String} {doc : List (String × Toml)} {cfg : ValidatedConfig}, parse text = .ok doc →
      (ValidatedConfig.load parse env (.ok text) = .ok cfg ↔
        ∃ raw, deRawConfig doc = .ok raw ∧ validate env raw = .ok cfg) := fun {text doc cfg} hp => by
    simp only [ValidatedConfig.load, hp]
    cases deRawConfig doc <;> simp
  rw [toOption_eq_iff]
  intro cfg
  rw [hload hp, hload hp']
  simp only [hraw]

/-- The keys of the `[dns]` table in two orders. -/
def sampleSections (swapped : Bool) : List (String × Toml) :=
  let dns : List (String × Toml) := [("provider", .string "cloudflare"), ("zone_id", .string "abc123"),
    ("api_token", .string "test-token")]
  [("prefix", .table [("method", .string "ra"), ("interface", .string "eth0")]),
    ("dns", .table (if swapped then dns.reverse else dns)), ("docker", .table [("enabled", .boolean true)])]

/-- The two texts. -/
def sectionsText (swapped : Bool) : String :=
  let dns : List String := ["provider = \"cloudflare\"\n", "zone_id = \"abc123\"\n", "api_token = \"test-token\"\n"]
  "[prefix]\nmethod = \"ra\"\ninterface = \"eth0\"\n\n[dns]\n" ++
  String.join (if swapped then dns.reverse else dns) ++ "\n[docker]\nenabled = true\n"

/-- A parser that knows them. -/
def parseSections (text : String) : Except String (List (String × Toml)) :=
  if text = sectionsText false then .ok (sampleSections false)
  else if text = sectionsText true then .ok (sampleSections true)
  else .error "invalid document"

/-- One document with its keys in two orders. -/
theorem load_reordered_dns :
    (ValidatedConfig.load parseSections (fun _ => none) (.ok (sectionsText false))).toOption =
      (ValidatedConfig.load parseSections (fun _ => none) (.ok (sectionsText true))).toOption :=
  load_reordered parseSections (fun _ => none) (if_pos rfl)
    ((if_neg (by decide)).trans (if_pos rfl) : parseSections (sectionsText true) = .ok (sampleSections true))
    (reordered_of_values (.cons ⟨rfl, .same _⟩ (.cons ⟨rfl, reordered_of_perm (List.reverse_perm _).symm (by decide)⟩
      (.cons ⟨rfl, .same _⟩ .nil))))

/-! ## Reading back what is written -/

variable {raw : RawConfig}

/-- The document is read back. -/
theorem deRawConfig_toToml (raw : RawConfig) : deRawConfig raw.toToml = .ok raw := by
  rw [deRawConfig_ok_iff]
  refine ⟨fun kv hkv => ?_, fun f => ?_⟩
  · rcases List.mem_append.1 hkv with hkv | hkv
    · simp only [List.mem_cons, List.not_mem_nil, or_false] at hkv
      rcases hkv with rfl | rfl | rfl | rfl
      exacts [⟨.pfx, rfl⟩, ⟨.dns, rfl⟩, ⟨.hosts, rfl⟩, ⟨.intervalSecs, rfl⟩]
    · obtain ⟨d, -, rfl⟩ := List.mem_map.1 hkv
      exact ⟨.docker, rfl⟩
  · cases f with
    | pfx =>
      have hl : raw.toToml.lookup RawField.pfx.name = some (taggedTable "method" raw.pfx.written) := rfl
      rw [hl]
      exact deRawPrefix_ok_iff.2 (tagged_taggedTable (by cases raw.pfx <;> simp [RawPrefix.written]))
    | dns =>
      have hl : raw.toToml.lookup RawField.dns.name = some (taggedTable "provider" raw.dns.written) := rfl
      rw [hl]
      exact deRawDns_ok_iff.2 (tagged_taggedTable (by cases raw.dns <;> simp [RawDns.written]))
    | hosts =>
      have hl : raw.toToml.lookup RawField.hosts.name = some (.array (raw.hosts.map HostEntry.toToml)) := rfl
      rw [hl]
      exact deList_toToml raw.hosts
    | intervalSecs =>
      have hl : raw.toToml.lookup RawField.intervalSecs.name = some (.integer raw.intervalSecs.toNat) := rfl
      rw [hl]
      exact deU64_toNat raw.intervalSecs
    | docker =>
      cases hd : raw.docker with
      | none =>
        have hl : raw.toToml.lookup RawField.docker.name = none := by
          rw [RawConfig.toToml, hd]
          rfl
        rw [hl]
        exact hd
      | some d =>
        have hl : raw.toToml.lookup RawField.docker.name = some d.toToml := by
          rw [RawConfig.toToml, hd]
          rfl
        rw [hl]
        exact ⟨d, hd, deRawDocker_toToml d⟩

/-- **Every configuration can be written down**: it is read back from its document, and from all documents that are
equal to this one but for the order of the keys. -/
theorem deRawConfig_encode (raw : RawConfig) (h : (Toml.table raw.toToml).Reordered (.table doc)) :
    deRawConfig doc = .ok raw :=
  (deRawConfig_reordered h.lookup).1 (deRawConfig_toToml raw)

/-- Docker discovery and RA detection. -/
def sampleRaw : RawConfig :=
  ⟨.ra "eth0", .cloudflare "abc123" "env:TOKEN", [], 60, some ⟨true, defaultSocketPath⟩⟩

/-- The document from the last key to the first. -/
theorem deRawConfig_encode_reverse : deRawConfig sampleRaw.toToml.reverse = .ok sampleRaw :=
  deRawConfig_encode sampleRaw (reordered_of_perm (List.reverse_perm _).symm (by decide))

end DdnsIpv6

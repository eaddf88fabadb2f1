import DdnsIpv6.Config.Keys
import DdnsIpv6.Lib.Ipv6.RoundTrip

/-!
# Writing a configuration

A document for every raw configuration (`RawConfig.toToml`). Where only known keys are, a deserializer makes of a value
something that is written down with the same keys and values in the same places (`Carries`): what was read is still
there. The text of a suffix alone may be another one for the same address.
-/

namespace DdnsIpv6

open Lib

variable {v x : Toml} {p q : List TomlStep} {k name tag t : String} {kvs : List (String × Toml)} {vs : List Toml}
  {fs : List (String × String)} {i : Nat}

/-- A tag and the fields of its variant. -/
def taggedTable (tag : String) (written : String × List (String × String)) : Toml :=
  .table ((tag, .string written.1) :: written.2.map fun f => (f.1, .string f.2))

def HostEntry.toToml (h : HostEntry) : Toml :=
  .table [("suffix", .string h.suffix.toString), ("domain", .string h.domain)]

def RawDocker.toToml (d : RawDocker) : Toml :=
  .table [("enabled", .boolean d.enabled), ("socket_path", .string d.socketPath)]

/-- A document for the configuration. -/
def RawConfig.toToml (raw : RawConfig) : List (String × Toml) :=
  [("prefix", taggedTable "method" raw.pfx.written), ("dns", taggedTable "provider" raw.dns.written),
    ("hosts", .array (raw.hosts.map HostEntry.toToml)), ("interval_secs", .integer raw.intervalSecs.toNat)] ++
    raw.docker.toList.map fun d => ("docker", d.toToml)

/-- The value under a key that the table has once. -/
theorem lookup_of_mem {x : Toml} (h : (k, x) ∈ kvs) (hnd : (kvs.map Prod.fst).Nodup) : kvs.lookup k = some x := by
  obtain ⟨before, after, rfl⟩ := List.append_of_mem h
  refine List.lookup_eq_some_iff.2 ⟨before, after, rfl, fun kv hkv => bne_iff_ne.2 fun he => ?_⟩
  rw [List.map_append, List.nodup_append] at hnd
  exact hnd.2.2 kv.1 (List.mem_map_of_mem hkv) k (List.mem_map_of_mem (List.mem_cons_self)) he.symm

theorem tagged_taggedTable {tag : String} {written : String × List (String × String)}
    (hnd : (tag :: written.2.map Prod.fst).Nodup) : Tagged tag written.1 written.2 (taggedTable tag written) where
  tag := congrArg Except.ok List.lookup_cons_self
  fields f hf := by
    have hkeys : (((tag, Toml.string written.1) :: written.2.map fun f => (f.1, .string f.2)).map Prod.fst) =
        tag :: written.2.map Prod.fst := by
      simp only [List.map_cons, List.map_map, Function.comp_def]
    refine congrArg Except.ok (lookup_of_mem (List.mem_cons_of_mem _ ?_) (hkeys ▸ hnd))
    exact List.mem_map_of_mem (f := fun f : String × String => (f.1, Toml.string f.2)) (List.fst_mem_of_mem_zipIdx hf)
  short _ h := nomatch h

theorem deHostEntry_toToml (h : HostEntry) : deHostEntry h.toToml = .ok h := by
  have hs : h.toToml.field 0 "suffix" = .ok (some (.string h.suffix.toString)) := rfl
  have hd : h.toToml.field 1 "domain" = .ok (some (.string h.domain)) := rfl
  have hsuffix : ipv6addrFromStr (.string h.suffix.toString) = .ok h.suffix := by
    simp only [ipv6addrFromStr, deString, bind, Except.bind, fromStr_toString]
  simp only [deHostEntry, Toml.required, hs, hd, bind, Except.bind, hsuffix, deString]

theorem deList_toToml (hosts : List HostEntry) :
    deList deHostEntry (.array (hosts.map HostEntry.toToml)) = .ok hosts := by
  rw [deList]
  induction hosts with
  | nil => rfl
  | cons h hosts ih =>
    rw [List.map_cons, List.mapM_cons, deHostEntry_toToml, ih]
    rfl

theorem deU64_toNat (n : UInt64) : deU64 (.integer n.toNat) = .ok n := by
  have hlt : (n.toNat : Int) < 2 ^ 64 := by exact_mod_cast n.toNat_lt
  rw [deU64, if_pos ⟨Int.natCast_nonneg _, hlt⟩, Int.toNat_natCast, UInt64.ofNat_toNat]

theorem deRawDocker_toToml (d : RawDocker) : deRawDocker d.toToml = .ok d := rfl

/-! ## What is carried over -/

/-- Equal values, or two texts of one suffix. -/
inductive SameValue : String → Toml → Toml → Prop
  | refl (k : String) (x : Toml) : SameValue k x x
  | suffix {s s' : String} {a : Ipv6Addr} (h : Ipv6Addr.fromStr s = some a) (h' : Ipv6Addr.fromStr s' = some a) :
      SameValue "suffix" (.string s) (.string s')

/-- What is written down has the plain values of `v` under the same keys, in the same places. -/
def CarriesOver (v v' : Toml) : Prop :=
  ∀ q k x, v.get? (q ++ [.key k]) = some x → x.IsPlain → ∃ y, v'.get? (q ++ [.key k]) = some y ∧ SameValue k x y

/-- Where only known keys are, the values are carried over. -/
def Carries {α : Type} (Accepts : α → Toml → Prop) (Known : Toml → Prop) (write : α → Toml) : Prop :=
  ∀ a v, Accepts a v → Known v → CarriesOver v (write a)

/-- A struct, by its fields. -/
theorem ReadsFields.carries {α : Type} {de : Toml → Except TomlError α} {names : Toml → List String} {write : α → Toml}
    (h : ReadsFields de names)
    (hwrite : ∀ {a kvs k x}, de (.table kvs) = .ok a → k ∈ names (.table kvs) → kvs.lookup k = some x →
      ∃ y, (write a).get? [.key k] = some y ∧ SameValue k x y) :
    Carries (fun a v => de v = .ok a) (fun v => v.OnlyKeys (names v)) write := by
  intro a v hv hknown q k x hx _
  obtain ⟨rfl, kvs, rfl, hk⟩ := h.key_place hv hknown hx
  exact hwrite hv hk (get?_singleton.symm.trans hx)

/-- Two values of one variant have the same fields. -/
theorem Tagged.field_eq {v' : Toml} (h : Tagged tag t fs v) (h' : Tagged tag t fs v')
    (hi : (tag :: fs.map Prod.fst)[i]? = some name) : v'.field i name = v.field i name := by
  cases i with
  | zero =>
    cases hi
    exact h'.tag.trans h.tag.symm
  | succ i =>
    rw [List.getElem?_cons_succ, List.getElem?_map] at hi
    obtain ⟨f, hf, rfl⟩ := Option.map_eq_some_iff.1 hi
    have hmem : (f, i) ∈ fs.zipIdx := List.mem_zipIdx_iff_getElem?.2 hf
    exact (h'.fields (f, i) hmem).trans (h.fields (f, i) hmem).symm

/-- A variant of a tagged enum. -/
theorem Tagged.carried {written : String × List (String × String)} (h : Tagged tag written.1 written.2 (.table kvs))
    (hnd : (tag :: written.2.map Prod.fst).Nodup) (hk : k ∈ tag :: written.2.map Prod.fst)
    (hx : kvs.lookup k = some x) : (taggedTable tag written).get? [.key k] = some x := by
  obtain ⟨i, hi⟩ := List.mem_iff_getElem?.1 hk
  have hfield : Except.ok ((taggedTable tag written).entries.lookup k) = Except.ok (kvs.lookup k) :=
    h.field_eq (tagged_taggedTable hnd) hi
  rw [get?_singleton, Except.ok.inj hfield, hx]

theorem carries_rawPrefix : Carries (fun a v => deRawPrefix v = .ok a)
    (fun v => v.OnlyKeys ("method" :: prefixFields (v.variant "method"))) fun a => taggedTable "method" a.written := by
  refine readsFields_rawPrefix.carries fun {a kvs k x} h hk hx => ?_
  have htagged := deRawPrefix_ok_iff.1 h
  refine ⟨x, htagged.carried (by cases a <;> simp [RawPrefix.written]) ?_ hx, .refl k x⟩
  rw [Toml.variant, htagged.tag] at hk
  cases a <;> exact hk

theorem carries_rawDns : Carries (fun a v => deRawDns v = .ok a)
    (fun v => v.OnlyKeys ("provider" :: dnsFields (v.variant "provider")))
    fun a => taggedTable "provider" a.written := by
  refine readsFields_rawDns.carries fun {a kvs k x} h hk hx => ?_
  have htagged := deRawDns_ok_iff.1 h
  refine ⟨x, htagged.carried (by cases a <;> simp [RawDns.written]) ?_ hx, .refl k x⟩
  rw [Toml.variant, htagged.tag] at hk
  cases a <;> exact hk

theorem ipv6addrFromStr_ok {a : Ipv6Addr} (h : ipv6addrFromStr v = .ok a) :
    ∃ s, v = .string s ∧ Ipv6Addr.fromStr s = some a := by
  obtain ⟨s, hs, h⟩ := bind_ok.1 h
  refine ⟨s, deString_ok_iff.1 hs, ?_⟩
  split at h
  · rename_i a' ha
    cases h
    exact ha
  · cases h

theorem carries_hostEntry :
    Carries (fun a v => deHostEntry v = .ok a) (fun v => v.OnlyKeys ["suffix", "domain"]) HostEntry.toToml := by
  refine readsFields_hostEntry.carries fun {a kvs k x} h hk hx => ?_
  simp only [deHostEntry, bind_ok, required_ok_iff, Toml.field, Except.ok.injEq] at h
  obtain ⟨suffix, ⟨y, hy, hsuffix⟩, domain, ⟨z, hz, hdomain⟩, rfl⟩ := h
  simp only [List.mem_cons, List.not_mem_nil, or_false] at hk
  rcases hk with rfl | rfl
  · cases hy.symm.trans hx
    obtain ⟨s, rfl, hs⟩ := ipv6addrFromStr_ok hsuffix
    exact ⟨.string suffix.toString, rfl, .suffix hs (fromStr_toString suffix)⟩
  · cases hz.symm.trans hx
    cases deString_ok_iff.1 hdomain
    exact ⟨_, rfl, .refl _ _⟩

theorem carries_rawDocker :
    Carries (fun a v => deRawDocker v = .ok a) (fun v => v.OnlyKeys ["enabled", "socket_path"]) RawDocker.toToml := by
  refine readsFields_rawDocker.carries fun {a kvs k x} h hk hx => ?_
  simp only [deRawDocker, bind_ok] at h
  obtain ⟨enabled, henabled, socketPath, hsocket, h⟩ := h
  cases h
  have hfield : ∀ i, (Toml.table kvs).field i k = .ok (some x) := fun _ => congrArg Except.ok hx
  simp only [List.mem_cons, List.not_mem_nil, or_false] at hk
  rcases hk with rfl | rfl
  · have hbool := orDefault_ok henabled (hfield 0)
    cases x with
    | boolean b =>
      cases hbool
      exact ⟨_, rfl, .refl _ _⟩
    | _ => cases hbool
  · cases deString_ok_iff.1 (orDefault_ok hsocket (hfield 1))
    exact ⟨_, rfl, .refl _ _⟩

/-- A list, by its elements. -/
theorem carries_deList {α : Type} {de : Toml → Except TomlError α} {Known : Toml → Prop} {write : α → Toml}
    (h : Carries (fun a v => de v = .ok a) Known write) : Carries (fun as v => deList de v = .ok as)
      (fun v => ∀ vs, v = .array vs → ∀ x ∈ vs, Known x) fun as => .array (as.map write) := by
  intro as v hv hknown q k x hx hplain
  obtain ⟨vs, rfl, has⟩ := deList_ok_iff.1 hv
  cases q with
  | nil => cases hx
  | cons s q =>
    cases s with
    | key k' => cases hx
    | index i =>
      obtain ⟨y, hy, hq⟩ := Option.bind_eq_some_iff.1 hx
      obtain ⟨a, hi, ha⟩ := (mapM_ok_iff.1 has).2 i y hy
      obtain ⟨z, hz, hsame⟩ := h a y ha (hknown vs rfl y (List.mem_of_getElem? hy)) q k x hq hplain
      refine ⟨z, ?_, hsame⟩
      rw [List.cons_append, Toml.get?, List.getElem?_map, hi, Option.map_some, Option.bind_some]
      exact hz

end DdnsIpv6

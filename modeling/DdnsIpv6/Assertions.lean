import DdnsIpv6.Cycle
import DdnsIpv6.Docker
import DdnsIpv6.Sources

/-!
# The assertions of `combine` in a debug build

In a debug build the host loop panics at the first host for which `combine` asserts something false. Prefixes of the
three detectors and suffixes of containers satisfy the assertions always; the suffix of a configured host does when its
upper half is zero, which `ValidatedConfig::load` neither checks nor enforces (`debug_cycle_iff`).
-/

namespace DdnsIpv6

open Lib Lib.WriteThrough Prefix

variable {σ : Type*}

/-! ## The cycle of a debug build -/

/-- The host loop; `none` is a panic. -/
def updateHostsDebug (u : DnsUpdater σ) (p : Ipv6Addr) :
    List (Ipv6Addr × String) → Nat → Daemon σ → Option (List (HostVisit σ) × Nat × Daemon σ)
  | [], errorCount, s => some ([], errorCount, s)
  | (suffix, domain) :: es, errorCount, s =>
    match combineDebug p suffix with
    | none => none
    | some newAddr =>
      let (report, s') := updateHost u newAddr domain s
      let errorCount' := match report with
        | .failed _ => errorCount + 1
        | _ => errorCount
      (updateHostsDebug u p es errorCount' s').map fun (visits, rest) =>
        (⟨s, domain, newAddr, report⟩ :: visits, rest)

/-- One update cycle; `none` is a panic. -/
def runUpdateCycleDebug (u : DnsUpdater σ) (detected : Except Error Ipv6Addr)
    (staticSuffixes : List (Ipv6Addr × String)) (discovered : Option (List HostEntry)) (s : Daemon σ) :
    Option (CycleResult σ) :=
  match detected with
  | .error _ => some ⟨[], [], 0, s⟩
  | .ok p =>
    let (duplicates, suffixes) := collectSuffixes [] (allSuffixes staticSuffixes (discovered.getD []))
    (updateHostsDebug u p suffixes 0 s).map fun (visits, errorCount, s') => ⟨visits, duplicates, errorCount, s'⟩

/-- The loop gets through exactly when every host satisfies the assertions. -/
theorem updateHostsDebug_ne_none {u : DnsUpdater σ} {p : Ipv6Addr} : ∀ {es : List (Ipv6Addr × String)} {n : Nat}
    {s : Daemon σ}, updateHostsDebug u p es n s ≠ none ↔ ∀ e ∈ es, CombineAsserts p e.1
  | [], _, _ => by simp [updateHostsDebug]
  | (suffix, domain) :: es, n, s => by
    rw [updateHostsDebug, List.forall_mem_cons]
    by_cases h : CombineAsserts p suffix
    · rw [combineDebug, if_pos h]
      simp only [h, true_and, ne_eq, Option.map_eq_none_iff]
      exact updateHostsDebug_ne_none
    · rw [combineDebug, if_neg h]
      simp [h]

/-- The cycle gets through exactly when every host of its list satisfies the assertions. -/
theorem runUpdateCycleDebug_ne_none {u : DnsUpdater σ} {p : Ipv6Addr} {staticSuffixes : List (Ipv6Addr × String)}
    {discovered : Option (List HostEntry)} {s : Daemon σ} :
    runUpdateCycleDebug u (.ok p) staticSuffixes discovered s ≠ none ↔
      ∀ e ∈ allSuffixes staticSuffixes (discovered.getD []), CombineAsserts p e.1 := by
  simp only [runUpdateCycleDebug, collectSuffixes_snd, ne_eq, Option.map_eq_none_iff]
  exact updateHostsDebug_ne_none

/-! ## The hosts of a configuration -/

/-- `static_suffixes` of `main` -/
def staticSuffixes (cfg : ValidatedConfig) : List (Ipv6Addr × String) := cfg.hosts.map fun h => (h.suffix, h.domain)

/-- The detected prefix and the discovered hosts do their part. -/
theorem asserts_iff_static {p : Ipv6Addr} {cfg : ValidatedConfig} {docker : Option DockerApi} (hp : p.lower64 = 0) :
    (∀ e ∈ allSuffixes (staticSuffixes cfg) ((docker.map discover).getD []), CombineAsserts p e.1) ↔
      ∀ h ∈ cfg.hosts, h.suffix.upper64 = 0 := by
  have hdocker : ∀ h ∈ (docker.map discover).getD [], h.suffix.upper64 = 0 := by
    cases docker with
    | none => exact fun _ hm => absurd hm List.not_mem_nil
    | some api => exact discover_upper64
  simp only [allSuffixes, staticSuffixes, List.forall_mem_append, List.forall_mem_map, combineAsserts_iff, hp,
    true_and]
  exact ⟨fun h => h.1, fun h => ⟨h, hdocker⟩⟩

/-- **The assertions of `combine`, exactly.** For an accepted configuration, a prefix that the configured detector
returned and the hosts that discovery returned, the update cycle of a debug build gets through if and only if no
configured suffix has a bit in its upper half. -/
theorem debug_cycle_iff {parse : String → Except String (List (String × Toml))} {env : String → Option String}
    {contents : Except String String} {cfg : ValidatedConfig} {received : List (List UInt8)} {answers : Answers}
    {p : Ipv6Addr} (_hload : ValidatedConfig.load parse env contents = .ok cfg)
    (hdetect : detect cfg.pfx (lastPrefix received) answers = .ok p) (docker : Option DockerApi) (u : DnsUpdater σ)
    (s : Daemon σ) :
    runUpdateCycleDebug u (detect cfg.pfx (lastPrefix received) answers) (staticSuffixes cfg) (docker.map discover) s ≠
        none ↔
      ∀ h ∈ cfg.hosts, h.suffix.upper64 = 0 := by
  obtain ⟨a, _, hfrom⟩ := detect_ok hdetect
  rw [hdetect, runUpdateCycleDebug_ne_none]
  exact asserts_iff_static hfrom.lower

/-! ## Two configurations -/

/-- A configuration file with one host. -/
def sampleText (suffix : String) : String :=
  "[prefix]\nmethod = \"dns\"\nreference_domain = \"router.example.com\"\n\n" ++
  "[dns]\nprovider = \"cloudflare\"\nzone_id = \"abc\"\napi_token = \"token\"\n\n" ++
  "[[hosts]]\nsuffix = \"" ++ suffix ++ "\"\ndomain = \"nas.example.com\"\n"

/-- What it says. -/
def sampleDoc (suffix : String) : List (String × Toml) :=
  [("prefix", .table [("method", .string "dns"), ("reference_domain", .string "router.example.com")]),
    ("dns", .table [("provider", .string "cloudflare"), ("zone_id", .string "abc"), ("api_token", .string "token")]),
    ("hosts", .array [.table [("suffix", .string suffix), ("domain", .string "nas.example.com")]])]

/-- A parser that knows these files. -/
def sampleParse (suffix text : String) : Except String (List (String × Toml)) :=
  if text = sampleText suffix then .ok (sampleDoc suffix) else .error "invalid document"

/-- The configuration that it gives. -/
def sampleConfig (suffix : Ipv6Addr) : ValidatedConfig :=
  ⟨.dns "router.example.com", .cloudflare "abc" "token", [⟨suffix, "nas.example.com"⟩], 300, none⟩

/-- Such a file is accepted, whatever its suffix. -/
theorem load_sample {suffix : String} {a : Ipv6Addr} (h : Ipv6Addr.fromStr suffix = some a) :
    ValidatedConfig.load (sampleParse suffix) (fun _ => none) (.ok (sampleText suffix)) = .ok (sampleConfig a) := by
  have hparse : sampleParse suffix (sampleText suffix) = .ok (sampleDoc suffix) := if_pos rfl
  have hsuffix : ipv6addrFromStr (.string suffix) = .ok a := by
    simp only [ipv6addrFromStr, deString, bind, Except.bind, h]
  have hraw : deRawConfig (sampleDoc suffix) = .ok ⟨.dns "router.example.com", .cloudflare "abc" "token",
      [⟨a, "nas.example.com"⟩], 300, none⟩ := by
    simp [deRawConfig, sampleDoc, Toml.required, Toml.orDefault, Toml.field, List.lookup_cons, deRawPrefix, deRawDns,
      splitTag, deList, deHostEntry, deString, bind, Except.bind, Toml.exhausted, hsuffix]
    rfl
  simp only [ValidatedConfig.load, hparse, hraw]
  rfl

/-- A suffix with an empty upper half: the configuration is accepted and the cycle gets through. -/
theorem debug_cycle_nas :
    runUpdateCycleDebug ⟨fun _ _ w => (.ok (), w), fun _ w => (.ok none, w)⟩
      (detect (sampleConfig ⟨0, 0, 0, 0, 0, 0, 0, 1⟩).pfx (lastPrefix [])
        ⟨.ok [.v6 ⟨0x2001, 0xdb8, 1, 2, 0, 0, 0, 7⟩], .error ""⟩)
      (staticSuffixes (sampleConfig ⟨0, 0, 0, 0, 0, 0, 0, 1⟩)) ((none : Option DockerApi).map discover)
      ⟨fun _ => none, ()⟩ ≠ none :=
  (debug_cycle_iff (load_sample (show Ipv6Addr.fromStr "::1" = _ by decide)) rfl none _ _).2 (by decide)

/-- A full address as suffix: the configuration is accepted and the first cycle that detects a prefix panics. -/
theorem debug_cycle_panics :
    ValidatedConfig.load (sampleParse "2001:db8::1") (fun _ => none) (.ok (sampleText "2001:db8::1")) =
      .ok (sampleConfig ⟨0x2001, 0xdb8, 0, 0, 0, 0, 0, 1⟩) ∧
    runUpdateCycleDebug ⟨fun _ _ w => (.ok (), w), fun _ w => (.ok none, w)⟩
      (detect (sampleConfig ⟨0x2001, 0xdb8, 0, 0, 0, 0, 0, 1⟩).pfx (lastPrefix [])
        ⟨.ok [.v6 ⟨0x2001, 0xdb8, 1, 2, 0, 0, 0, 7⟩], .error ""⟩)
      (staticSuffixes (sampleConfig ⟨0x2001, 0xdb8, 0, 0, 0, 0, 0, 1⟩)) none ⟨fun _ => none, ()⟩ = none :=
  ⟨load_sample (by decide), rfl⟩

end DdnsIpv6

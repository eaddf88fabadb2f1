import DdnsIpv6.Assertions
import DdnsIpv6.Config.Keys
import DdnsIpv6.Tasks.Wire

/-!
# From the configuration file to the requests

`start` is `main` up to its first query: it loads the configuration and builds the detector, the updater and the Docker
discoverer. After a configuration is loaded no configuration error is left to happen (`start_error`). A process that was
started so asks for and writes the records of hosts that are configured or were discovered, with addresses that combine
a detected prefix and their suffix: every HTTP request carries the configured token and, where the ids are plain, goes
to the records of the configured zone (`main_sends`), and the DNS client that is called was made for the configured name
server and key (`main_updates`).
-/

namespace DdnsIpv6

open Lib Lib.WriteThrough Prefix

variable {σ : Type}

/-! ## `main` -/

/-- What `main` needs of the libraries: a resolver, an HTTP client, a DNS update client and a connection to Docker. -/
structure Libraries (σ : Type) where
  buildResolver : Except String Unit
  client : Http σ
  newRfc2136Tsig : String → String → List UInt8 → TsigAlgorithm → Except String (DnsUpdateClient σ)
  connectWithUnix : (socketPath : String) → (timeoutSecs : Nat) → Except String Unit

/-- A detector, by what it was made with. -/
inductive Detector where
  | dnsResolver (referenceDomain : String) (intervalSecs : UInt64)
  | netlinkWatcher (interface : String)
  | raListener (interface : String)
  deriving DecidableEq, Repr

structure DockerDiscoverer where
  socketPath : String
  deriving DecidableEq, Repr

def DockerDiscoverer.new (libs : Libraries σ) (config : DockerConfig) : Except Error DockerDiscoverer := do
  (libs.connectWithUnix config.socketPath 120).mapError .other
  return ⟨config.socketPath⟩

/-- `build_detector`, on Linux. -/
def buildDetector (libs : Libraries σ) (config : ValidatedConfig) : Except Error Detector :=
  match config.pfx with
  | .dns referenceDomain => do
    libs.buildResolver.mapError .other
    return .dnsResolver referenceDomain config.intervalSecs
  | .netlink interface => return .netlinkWatcher interface
  | .ra interface => return .raListener interface

def buildUpdater (libs : Libraries σ) (config : ValidatedConfig) : Except Error (DnsUpdater σ) :=
  match config.dns with
  | .cloudflare zoneId apiToken => return (⟨zoneId, apiToken⟩ : CloudflareUpdater).toDnsUpdater libs.client
  | .rfc2136 server keyName keyAlgorithm keySecret => do
    let updater ← Rfc2136Updater.new libs.newRfc2136Tsig server keyName keyAlgorithm keySecret
    return updater.toDnsUpdater

/-- `docker_discoverer` of `main` -/
def buildDiscoverer (libs : Libraries σ) (config : ValidatedConfig) : Except Error (Option DockerDiscoverer) :=
  match config.docker with
  | some dc => some <$> DockerDiscoverer.new libs dc
  | none => .ok none

/-- The error that `main` ends with. -/
inductive MainError where
  | config (e : ConfigError)
  | error (e : Error)
  deriving DecidableEq, Repr

/-- What `main` has when it begins to query the current records. -/
structure Started (σ : Type) where
  config : ValidatedConfig
  detector : Detector
  updater : DnsUpdater σ
  staticSuffixes : List (Ipv6Addr × String)
  dockerDiscoverer : Option DockerDiscoverer

def start (libs : Libraries σ) (parse : String → Except String (List (String × Toml))) (env : String → Option String)
    (contents : Except String String) : Except MainError (Started σ) := do
  let config ← (ValidatedConfig.load parse env contents).mapError .config
  let detector ← (buildDetector libs config).mapError .error
  let updater ← (buildUpdater libs config).mapError .error
  let dockerDiscoverer ← (buildDiscoverer libs config).mapError .error
  return ⟨config, detector, updater, staticSuffixes config, dockerDiscoverer⟩

/-- What the tasks of the process are set up with. -/
def Started.setup (d : Started σ) : Setup := ⟨d.config.pfx, d.staticSuffixes⟩

section Start

variable {libs : Libraries σ} {parse : String → Except String (List (String × Toml))} {env : String → Option String}
  {contents : Except String String} {config : ValidatedConfig} {d : Started σ}

theorem mapError_ok {ε ε' α : Type} {x : Except ε α} {f : ε → ε'} {a : α} : x.mapError f = .ok a ↔ x = .ok a := by
  cases x <;> simp [Except.mapError]

theorem mapError_error {ε ε' α : Type} {x : Except ε α} {f : ε → ε'} {e' : ε'} :
    x.mapError f = .error e' ↔ ∃ e, x = .error e ∧ f e = e' := by
  cases x <;> simp [Except.mapError]

/-- A computation fails where one of its parts does. -/
theorem bind_error {ε α β : Type} {x : Except ε α} {f : α → Except ε β} {e : ε} :
    (x >>= f) = .error e ↔ x = .error e ∨ ∃ a, x = .ok a ∧ f a = .error e := by
  cases x <;> simp [bind, Except.bind]

/-- `main` has what it built from the configuration that it loaded. -/
theorem start_ok (h : start libs parse env contents = .ok d) :
    ValidatedConfig.load parse env contents = .ok d.config ∧ buildDetector libs d.config = .ok d.detector ∧
      buildUpdater libs d.config = .ok d.updater ∧ d.staticSuffixes = staticSuffixes d.config := by
  obtain ⟨config, hconfig, h⟩ := bind_ok.1 h
  obtain ⟨detector, hdetector, h⟩ := bind_ok.1 h
  obtain ⟨updater, hupdater, h⟩ := bind_ok.1 h
  obtain ⟨dockerDiscoverer, -, h⟩ := bind_ok.1 h
  cases h
  exact ⟨mapError_ok.1 hconfig, mapError_ok.1 hdetector, mapError_ok.1 hupdater, rfl⟩

/-- A validated configuration has a provider that was validated. -/
theorem validate_dns {raw : RawConfig} (h : validate env raw = .ok config) :
    validateDns env raw.dns = .ok config.dns := by
  obtain ⟨dns, hdns, h⟩ := bind_ok.1 h
  simp only at h
  split at h
  · cases h
  · cases h
    exact hdns

/-- The algorithm that a name of the configuration stands for. -/
inductive NamesAlgorithm : String → TsigAlgorithm → Prop
  | hmacSha256 : NamesAlgorithm "hmac-sha256" .hmacSha256
  | hmacSha512 : NamesAlgorithm "hmac-sha512" .hmacSha512

/-- The configured algorithm is one of the two that `Rfc2136Updater` knows. -/
theorem load_algorithm {server keyName keyAlgorithm keySecret : String}
    (h : ValidatedConfig.load parse env contents = .ok config)
    (hdns : config.dns = .rfc2136 server keyName keyAlgorithm keySecret) :
    ∃ algorithm, NamesAlgorithm keyAlgorithm algorithm := by
  obtain ⟨raw, hvalid⟩ : ∃ raw, validate env raw = .ok config := by
    unfold ValidatedConfig.load at h
    split at h
    · cases h
    · split at h
      · cases h
      · split at h
        · cases h
        · exact ⟨_, h⟩
  have hdns' := validate_dns hvalid
  rw [hdns] at hdns'
  cases hraw : raw.dns with
  | cloudflare zoneId apiToken =>
    rw [hraw] at hdns'
    obtain ⟨_, -, h⟩ := bind_ok.1 hdns'
    cases h
  | rfc2136 server' keyName' keyAlgorithm' keySecret' =>
    rw [hraw] at hdns'
    simp only [validateDns] at hdns'
    split at hdns'
    · cases hdns'
    · rename_i hknown
      obtain ⟨_, -, h⟩ := bind_ok.1 hdns'
      cases h
      have hname : keyAlgorithm = "hmac-sha256" ∨ keyAlgorithm = "hmac-sha512" := by
        by_contra hne
        exact hknown (not_or.1 hne)
      rcases hname with rfl | rfl
      · exact ⟨_, .hmacSha256⟩
      · exact ⟨_, .hmacSha512⟩

/-- With a known algorithm `new` makes the client. -/
theorem newRfc2136_eq (new : String → String → List UInt8 → TsigAlgorithm → Except String (DnsUpdateClient σ))
    (server keyName keySecret : String) {keyAlgorithm : String} {algorithm : TsigAlgorithm}
    (h : NamesAlgorithm keyAlgorithm algorithm) : Rfc2136Updater.new new server keyName keyAlgorithm keySecret =
      (new server keyName keySecret.toUTF8.toList algorithm).mapError .other >>= fun updater => .ok ⟨updater⟩ := by
  cases h <;> rfl

theorem newRfc2136_error {new : String → String → List UInt8 → TsigAlgorithm → Except String (DnsUpdateClient σ)}
    {server keyName keyAlgorithm keySecret : String} {e : Error}
    (hknown : ∃ algorithm, NamesAlgorithm keyAlgorithm algorithm)
    (h : Rfc2136Updater.new new server keyName keyAlgorithm keySecret = .error e) : ∃ text, e = .other text := by
  obtain ⟨algorithm, hname⟩ := hknown
  rw [newRfc2136_eq new server keyName keySecret hname] at h
  rcases bind_error.1 h with h | ⟨_, -, h⟩
  · obtain ⟨text, -, rfl⟩ := mapError_error.1 h
    exact ⟨text, rfl⟩
  · cases h

theorem buildDetector_error {e : Error} (h : buildDetector libs config = .error e) : ∃ text, e = .other text := by
  unfold buildDetector at h
  split at h
  · rcases bind_error.1 h with h | ⟨_, -, h⟩
    · obtain ⟨text, -, rfl⟩ := mapError_error.1 h
      exact ⟨text, rfl⟩
    · cases h
  · cases h
  · cases h

/-- The updater of a loaded configuration has a known algorithm. -/
theorem buildUpdater_error {e : Error} (hload : ValidatedConfig.load parse env contents = .ok config)
    (h : buildUpdater libs config = .error e) : ∃ text, e = .other text := by
  unfold buildUpdater at h
  split at h
  · cases h
  · rename_i server keyName keyAlgorithm keySecret hdns
    rcases bind_error.1 h with h | ⟨_, -, h⟩
    · exact newRfc2136_error (load_algorithm hload hdns) h
    · cases h

theorem buildDiscoverer_error {e : Error} (h : buildDiscoverer libs config = .error e) : ∃ text, e = .other text := by
  unfold buildDiscoverer at h
  split at h
  · rename_i dc hdocker
    cases hnew : DockerDiscoverer.new libs dc with
    | error e' =>
      rw [hnew] at h
      cases h
      rcases bind_error.1 hnew with h | ⟨_, -, h⟩
      · obtain ⟨text, -, rfl⟩ := mapError_error.1 h
        exact ⟨text, rfl⟩
      · cases h
    | ok dd =>
      rw [hnew] at h
      cases h
  · cases h

/-- **After the configuration is loaded** `main` fails only where a library does: no configuration error is left. -/
theorem start_error {e : Error} (h : start libs parse env contents = .error (.error e)) : ∃ text, e = .other text := by
  rcases bind_error.1 h with h | ⟨config, hconfig, h⟩
  · obtain ⟨_, -, he⟩ := mapError_error.1 h
    cases he
  rcases bind_error.1 h with h | ⟨detector, -, h⟩
  · obtain ⟨e, h, he⟩ := mapError_error.1 h
    cases he
    exact buildDetector_error h
  rcases bind_error.1 h with h | ⟨updater, -, h⟩
  · obtain ⟨e, h, he⟩ := mapError_error.1 h
    cases he
    exact buildUpdater_error (mapError_ok.1 hconfig) h
  rcases bind_error.1 h with h | ⟨_, -, h⟩
  · obtain ⟨e, h, he⟩ := mapError_error.1 h
    cases he
    exact buildDiscoverer_error h
  · cases h

/-- A configuration error is one of `load`. -/
theorem start_config_error {e : ConfigError} : (start libs parse env contents = .error (.config e) ∨
    start libs parse env contents = .error (.error (.config e))) ↔
      ValidatedConfig.load parse env contents = .error e := by
  constructor
  · rintro (h | h)
    · rcases bind_error.1 h with h | ⟨config, -, h⟩
      · obtain ⟨e', h, he⟩ := mapError_error.1 h
        cases he
        exact h
      · -- what comes after `load` has errors of the other kind
        rcases bind_error.1 h with h | ⟨_, -, h⟩
        · obtain ⟨_, -, he⟩ := mapError_error.1 h
          cases he
        rcases bind_error.1 h with h | ⟨_, -, h⟩
        · obtain ⟨_, -, he⟩ := mapError_error.1 h
          cases he
        rcases bind_error.1 h with h | ⟨_, -, h⟩
        · obtain ⟨_, -, he⟩ := mapError_error.1 h
          cases he
        · cases h
    · obtain ⟨text, he⟩ := start_error h
      cases he
  · intro h
    exact Or.inl (bind_error.2 (Or.inl (mapError_error.2 ⟨e, h, rfl⟩)))

end Start

/-! ## What is sent -/

/-- A request for one of the hosts, whose writes have addresses that combine one of the prefixes with the suffix of the
host. A patch is for a record that an answer in the log lists first for the host. -/
inductive SentFor (self : CloudflareUpdater) (hosts : List (Ipv6Addr × String)) (prefixes : List Ipv6Addr)
    (log : List HttpEvent) : HttpRequest → Prop
  | list {suffix : Ipv6Addr} {domain : String} (he : (suffix, domain) ∈ hosts) :
      SentFor self hosts prefixes log (self.listRequest domain)
  | patch {suffix p : Ipv6Addr} {domain : String} (he : (suffix, domain) ∈ hosts) (hp : p ∈ prefixes)
      {answer : Except String HttpResponse} {record : CfDnsRecord}
      (hl : HttpEvent.send (self.listRequest domain) answer ∈ log) (hr : (listed answer).head? = some record) :
      SentFor self hosts prefixes log (self.patchRequest record.id (combine p suffix).toString)
  | create {suffix p : Ipv6Addr} {domain : String} (he : (suffix, domain) ∈ hosts) (hp : p ∈ prefixes) :
      SentFor self hosts prefixes log (self.createRequest domain (combine p suffix).toString)

/-- As its URL is read, the request goes to the records of this zone, or to one of them. -/
def Addressed (zoneId : String) (req : HttpRequest) : Prop :=
  Url.location req.url.toList = zoneRecordsUrl zoneId ∨
    ∃ id, PlainId id ∧ Url.location req.url.toList = zoneRecordUrl zoneId id

section SentFor

variable {zoneId apiToken : String} {hosts : List (Ipv6Addr × String)} {prefixes : List Ipv6Addr}
  {log log' : List HttpEvent} {req : HttpRequest}

theorem SentFor.mono {self : CloudflareUpdater} (h : SentFor self hosts prefixes log req) (hlog : log ⊆ log') :
    SentFor self hosts prefixes log' req := by
  cases h with
  | list he => exact .list he
  | patch he hp hl hr => exact .patch he hp (hlog hl) hr
  | create he hp => exact .create he hp

theorem SentFor.authorization (h : SentFor ⟨zoneId, apiToken⟩ hosts prefixes log req) :
    req.authorization = "Bearer " ++ apiToken := by
  cases h <;> rfl

/-- Whatever the domain is, and if only plain ids are listed. -/
theorem SentFor.addressed (h : SentFor ⟨zoneId, apiToken⟩ hosts prefixes log req) (hzone : PlainId zoneId)
    (hids : ∀ req answer, HttpEvent.send req answer ∈ log → ∀ r ∈ listed answer, PlainId r.id) :
    Addressed zoneId req := by
  cases h with
  | @list suffix domain he =>
    refine Or.inl ?_
    rw [CloudflareUpdater.listRequest, listPath_url]
    exact location_list hzone _
  | @patch suffix p domain he hp answer record hl hr =>
    have hid : PlainId record.id := hids _ _ hl record (List.mem_of_head? hr)
    refine Or.inr ⟨record.id, hid, ?_⟩
    rw [CloudflareUpdater.patchRequest, recordPath_url]
    exact location_zoneRecordUrl hzone hid
  | create he hp =>
    refine Or.inl ?_
    rw [CloudflareUpdater.createRequest, recordsPath_url]
    exact location_zoneRecordsUrl hzone

end SentFor

/-- All attempts send the same request. -/
theorem Attempts.request_eq {req req' : HttpRequest} {n : Nat} {es : List HttpEvent}
    {answer answer' : Except String HttpResponse} (h : Attempts req n es answer)
    (hs : HttpEvent.send req' answer' ∈ es) : req' = req := by
  induction h with
  | answered _ | givenUp _ =>
    cases List.mem_singleton.1 hs
    rfl
  | retried _ _ ih =>
    rcases List.mem_cons.1 hs with hs | hs
    · cases hs
      rfl
    · exact ih ((List.mem_cons.1 hs).resolve_left (fun h => by cases h))

/-- The answer that counts is logged. -/
theorem Attempts.answer_mem {req : HttpRequest} {n : Nat} {es : List HttpEvent} {answer : Except String HttpResponse}
    (h : Attempts req n es answer) : HttpEvent.send req answer ∈ es := by
  induction h with
  | answered _ | givenUp _ => exact List.mem_singleton_self _
  | retried _ _ ih => exact List.mem_cons_of_mem _ (List.mem_cons_of_mem _ ih)

/-- The record that a list response has first. -/
theorem head_listed {path : String} {answer : Except String HttpResponse} {response : CfApiResponse (List CfDnsRecord)}
    {record : CfDnsRecord} {records : List CfDnsRecord}
    (hr : CloudflareUpdater.readAnswer BodyText.asList path answer = .ok response)
    (hres : response.result = some (record :: records)) : (listed answer).head? = some record := by
  obtain ⟨_, body, rfl, -, ht, hp⟩ := readAnswer_ok_iff.1 hr
  rw [listed_of_body ht hp, hres]
  rfl

/-- What a call for a host that was heard of sends. -/
theorem CfCallLog.sentFor {self : CloudflareUpdater} {cfg : Setup} {n : HeardOf} {c : Call String Ipv6Addr}
    {es : List HttpEvent} (h : CfCallLog self c es) (hc : n.Explains cfg c) {req : HttpRequest}
    {answer : Except String HttpResponse} (hs : HttpEvent.send req answer ∈ es) :
    SentFor self (n.hosts cfg) n.prefixes es req := by
  cases h with
  | query h =>
    obtain ⟨⟨suffix, domain⟩, he, rfl⟩ := hc
    rw [h.request_eq hs]
    exact .list he
  | list h =>
    obtain ⟨⟨suffix, domain⟩, he, rfl, -⟩ := hc
    rw [h.request_eq hs]
    exact .list he
  | patch h hr hsuccess hres hne hw =>
    obtain ⟨⟨suffix, domain⟩, he, rfl, p, hp, rfl⟩ := hc
    rcases List.mem_append.1 hs with hs | hs
    · rw [h.request_eq hs]
      exact .list he
    · rw [hw.request_eq hs]
      exact .patch he hp (List.mem_append_left _ h.answer_mem) (head_listed hr hres)
  | create h hr hsuccess hres hw =>
    obtain ⟨⟨suffix, domain⟩, he, rfl, p, hp, rfl⟩ := hc
    rcases List.mem_append.1 hs with hs | hs
    · rw [h.request_eq hs]
      exact .list he
    · rw [hw.request_eq hs]
      exact .create he hp

/-- **What a process sends that was started with a Cloudflare configuration**, in every interleaving and with every
server: requests with the configured token, that list the records of configured or discovered hosts, or write an address
of a detected prefix and the suffix of such a host. With a plain zone id, and from a server that lists plain ids, all of
them go to the records of the configured zone. -/
theorem main_sends {libs : Libraries σ} {parse : String → Except String (List (String × Toml))}
    {env : String → Option String} {contents : Except String String} {d : Started σ}
    (hstart : start libs parse env contents = .ok d) {zoneId apiToken : String}
    (hdns : d.config.dns = .cloudflare zoneId apiToken) (w : σ) {es : List TaskEvent} {t : Served σ} {n : HeardOf}
    (hr : run (observed (servedStep d.setup d.updater) (HeardOf.note d.setup)) (.init w, .nothing) es =
      some (t, n)) :
    ∃ log, run (servedStep d.setup ((⟨zoneId, apiToken⟩ : CloudflareUpdater).toDnsUpdater libs.client.logged))
        (.init ⟨w, []⟩) es = some ⟨t.task, ⟨t.world, log⟩⟩ ∧
      (∀ req answer, HttpEvent.send req answer ∈ log → req.authorization = "Bearer " ++ apiToken ∧
        SentFor ⟨zoneId, apiToken⟩ (allSuffixes (staticSuffixes d.config) n.discovered) n.prefixes log req) ∧
      (PlainId zoneId → (∀ req answer, HttpEvent.send req answer ∈ log → ∀ r ∈ listed answer, PlainId r.id) →
        ∀ req answer, HttpEvent.send req answer ∈ log → Addressed zoneId req) := by
  obtain ⟨-, -, hupdater, hstatic⟩ := start_ok hstart
  have hu : d.updater = (⟨zoneId, apiToken⟩ : CloudflareUpdater).toDnsUpdater libs.client := by
    rw [buildUpdater, hdns] at hupdater
    exact (Except.ok.inj hupdater).symm
  rw [hu] at hr
  obtain ⟨log, hlog, hexplained⟩ := log_explained (cloudflare_loggedBy ⟨zoneId, apiToken⟩ libs.client) hr
  have hsent : ∀ req answer, HttpEvent.send req answer ∈ log →
      SentFor ⟨zoneId, apiToken⟩ (allSuffixes (staticSuffixes d.config) n.discovered) n.prefixes log req := by
    intro req answer hs
    obtain ⟨c, xs, hc, hcall, hs, hsub⟩ := hexplained _ hs
    have hsent := (hcall.sentFor hc hs).mono hsub
    rwa [HeardOf.hosts, Started.setup, hstatic] at hsent
  refine ⟨log, hlog, fun req answer hs => ⟨(hsent req answer hs).authorization, hsent req answer hs⟩, ?_⟩
  exact fun hzone hids req answer hs => (hsent req answer hs).addressed hzone hids

/-- The zone of the sample configuration. -/
def abcApi : ZoneApi := { sampleApi with zoneId := "abc", plainZoneId := by decide }

def sampleLibraries : Libraries (Remote abcApi.service) :=
  ⟨.ok (), abcApi.http, fun _ _ _ _ => .error "invalid address", fun _ _ => .ok ()⟩

/-- What the sample configuration starts. -/
def sampleStarted : Started (Remote abcApi.service) :=
  ⟨sampleConfig ⟨0, 0, 0, 0, 0, 0, 0, 1⟩, .dnsResolver "router.example.com" 300,
    (⟨"abc", "token"⟩ : CloudflareUpdater).toDnsUpdater abcApi.http, [(⟨0, 0, 0, 0, 0, 0, 0, 1⟩, "nas.example.com")],
    none⟩

theorem start_sample : start sampleLibraries (sampleParse "::1") (fun _ => none) (.ok (sampleText "::1")) =
    .ok sampleStarted := by
  rw [start, load_sample (show Ipv6Addr.fromStr "::1" = some ⟨0, 0, 0, 0, 0, 0, 0, 1⟩ by decide)]
  rfl

/-- The startup, with a cycle that resolves the reference domain. -/
def sampleResolved : List TaskEvent :=
  [.main .spawnListener, .main .newReturns, .main (.seedHosts none), .main (.seedRecord (.ok none)),
    .main .startupCycle, .main .callDetect,
    .main (.detectReturns ⟨.ok [.v6 ⟨0x2001, 0xdb8, 1, 2, 0, 0, 0, 7⟩], .error ""⟩),
    .main (.discovered none), .main (.host (.ok ())), .main .endCycle]

/-- What is sent. -/
def sampleLog : List HttpEvent :=
  let self : CloudflareUpdater := ⟨"abc", "token"⟩
  [.send (self.listRequest "nas.example.com") (.ok (listAnswer [])),
    .send (self.listRequest "nas.example.com") (.ok (listAnswer [])),
    .send (self.createRequest "nas.example.com" "2001:db8:1:2::1")
      (.ok (recordAnswer ⟨"r", "AAAA", "nas.example.com", "2001:db8:1:2::1", 120⟩))]

set_option maxRecDepth 4000 in
theorem main_sends_nas : ∃ t n log,
    run (observed (servedStep sampleStarted.setup sampleStarted.updater) (HeardOf.note sampleStarted.setup))
      (.init ⟨emptyZone, []⟩, .nothing) sampleResolved = some (t, n) ∧
    n.prefixes = [⟨0x2001, 0xdb8, 1, 2, 0, 0, 0, 0⟩] ∧
    run (servedStep sampleStarted.setup
        ((⟨"abc", "token"⟩ : CloudflareUpdater).toDnsUpdater sampleLibraries.client.logged))
        (.init ⟨⟨emptyZone, []⟩, []⟩) sampleResolved = some ⟨t.task, ⟨t.world, log⟩⟩ ∧
    log = sampleLog ∧
      (∀ req answer, HttpEvent.send req answer ∈ log → req.authorization = "Bearer " ++ "token" ∧
        SentFor ⟨"abc", "token"⟩ (allSuffixes (staticSuffixes sampleStarted.config) n.discovered) n.prefixes log
          req) ∧
      (∀ req answer, HttpEvent.send req answer ∈ log → Addressed "abc" req) := by
  obtain ⟨log, hlog, hsent, haddr⟩ :=
    main_sends start_sample rfl ⟨emptyZone, []⟩ (show run _ _ sampleResolved = _ from rfl)
  have hlog' : log = sampleLog := by
    have h := congrArg (Option.map (·.world.log)) hlog
    exact (Option.some.inj (h.symm.trans (show _ = some sampleLog by rfl)))
  refine ⟨_, _, log, rfl, rfl, hlog, hlog', hsent, haddr (by decide) ?_⟩
  subst hlog'
  intro req answer hs r hr
  simp only [sampleLog, List.mem_cons, List.not_mem_nil, or_false, HttpEvent.send.injEq] at hs
  rcases hs with ⟨-, rfl⟩ | ⟨-, rfl⟩ | ⟨-, rfl⟩ <;> cases hr

/-! ## What the DNS client is called for -/

/-- A query call for one of the hosts, or an update call with an address that combines one of the prefixes with the
suffix of the host. -/
inductive UpdateFor (hosts : List (Ipv6Addr × String)) (prefixes : List Ipv6Addr) : DnsEvent → Prop
  | query {suffix : Ipv6Addr} {domain : String} (he : (suffix, domain) ∈ hosts)
      (answer : Except String (List DnsRecord)) : UpdateFor hosts prefixes (.query domain answer)
  | update {suffix p : Ipv6Addr} {domain : String} (he : (suffix, domain) ∈ hosts) (hp : p ∈ prefixes)
      (answer : Except String Unit) : UpdateFor hosts prefixes (.update domain (combine p suffix) answer)

/-- What a call for a host that was heard of calls the DNS client for. -/
theorem DnsCallLog.updateFor {cfg : Setup} {n : HeardOf} {c : Call String Ipv6Addr} {es : List DnsEvent}
    (h : DnsCallLog c es) (hc : n.Explains cfg c) {e : DnsEvent} (hs : e ∈ es) :
    UpdateFor (n.hosts cfg) n.prefixes e := by
  cases h with
  | query domain answer =>
    obtain ⟨⟨suffix, _⟩, he, rfl⟩ := hc
    rw [List.mem_singleton.1 hs]
    exact .query he answer
  | correct hr =>
    obtain ⟨⟨suffix, _⟩, he, rfl, -⟩ := hc
    rw [List.mem_singleton.1 hs]
    exact .query he _
  | update hr answer' =>
    obtain ⟨⟨suffix, _⟩, he, rfl, p, hp, rfl⟩ := hc
    rcases List.mem_cons.1 hs with rfl | hs
    · exact .query he _
    · rw [List.mem_singleton.1 hs]
      exact .update he hp answer'

/-- **What a process updates that was started with an RFC 2136 configuration**, in every interleaving and with every
client: the client is made for the configured server and signs with the configured key and algorithm, and every call of
the client lists the records of a configured or discovered host in its zone, or sets its one AAAA record to an address
of a detected prefix and the suffix of the host. -/
theorem main_updates {libs : Libraries σ} {parse : String → Except String (List (String × Toml))}
    {env : String → Option String} {contents : Except String String} {d : Started σ}
    (hstart : start libs parse env contents = .ok d) {server keyName keyAlgorithm keySecret : String}
    (hdns : d.config.dns = .rfc2136 server keyName keyAlgorithm keySecret) (w : σ) {es : List TaskEvent}
    {t : Served σ} {n : HeardOf}
    (hr : run (observed (servedStep d.setup d.updater) (HeardOf.note d.setup)) (.init w, .nothing) es =
      some (t, n)) :
    ∃ algorithm client log, NamesAlgorithm keyAlgorithm algorithm ∧
      libs.newRfc2136Tsig server keyName keySecret.toUTF8.toList algorithm = .ok client ∧
      run (servedStep d.setup (⟨client.logged⟩ : Rfc2136Updater (Logged σ DnsEvent)).toDnsUpdater) (.init ⟨w, []⟩) es =
        some ⟨t.task, ⟨t.world, log⟩⟩ ∧
      ∀ e ∈ log, UpdateFor (allSuffixes (staticSuffixes d.config) n.discovered) n.prefixes e := by
  obtain ⟨hload, -, hupdater, hstatic⟩ := start_ok hstart
  obtain ⟨algorithm, hname⟩ := load_algorithm hload hdns
  rw [buildUpdater, hdns] at hupdater
  obtain ⟨self, hself, hupdater⟩ := bind_ok.1 hupdater
  rw [newRfc2136_eq _ server keyName keySecret hname] at hself
  obtain ⟨client, hclient, hself⟩ := bind_ok.1 hself
  cases hself
  rw [← Except.ok.inj hupdater] at hr
  obtain ⟨log, hlog, hexplained⟩ := log_explained (rfc2136_loggedBy (⟨client⟩ : Rfc2136Updater σ)) hr
  refine ⟨algorithm, client, log, hname, mapError_ok.1 hclient, hlog, fun e he => ?_⟩
  obtain ⟨c, xs, hc, hcall, he, -⟩ := hexplained e he
  have hsent := hcall.updateFor hc he
  rwa [HeardOf.hosts, Started.setup, hstatic] at hsent

/-- A configuration file with a name server, whose key is in a variable of the process. -/
def nameServerText : String :=
  "[prefix]\nmethod = \"dns\"\nreference_domain = \"router.example.com\"\n\n" ++
  "[dns]\nprovider = \"rfc2136\"\nserver = \"tcp://ns1.example.com:53\"\nkey_name = \"ddns-key.\"\n" ++
  "key_algorithm = \"hmac-sha256\"\nkey_secret = \"env:TSIG_KEY\"\n\n" ++
  "[[hosts]]\nsuffix = \"::1\"\ndomain = \"nas.example.com\"\n"

/-- What it says. -/
def nameServerDoc : List (String × Toml) :=
  [("prefix", .table [("method", .string "dns"), ("reference_domain", .string "router.example.com")]),
    ("dns", .table [("provider", .string "rfc2136"), ("server", .string "tcp://ns1.example.com:53"),
      ("key_name", .string "ddns-key."), ("key_algorithm", .string "hmac-sha256"),
      ("key_secret", .string "env:TSIG_KEY")]),
    ("hosts", .array [.table [("suffix", .string "::1"), ("domain", .string "nas.example.com")]])]

def nameServerParse (text : String) : Except String (List (String × Toml)) :=
  if text = nameServerText then .ok nameServerDoc else .error "invalid document"

/-- The configuration that it gives. -/
def nameServerConfig : ValidatedConfig :=
  ⟨.dns "router.example.com", .rfc2136 "tcp://ns1.example.com:53" "ddns-key." "hmac-sha256" "dGVzdA==",
    [⟨⟨0, 0, 0, 0, 0, 0, 0, 1⟩, "nas.example.com"⟩], 300, none⟩

def nameServerEnv (var : String) : Option String :=
  if var = "TSIG_KEY" then some "dGVzdA==" else none

theorem load_nameServer : ValidatedConfig.load nameServerParse nameServerEnv (.ok nameServerText) =
    .ok nameServerConfig := by
  have hparse : nameServerParse nameServerText = .ok nameServerDoc := if_pos rfl
  have hsuffix : ipv6addrFromStr (.string "::1") = .ok ⟨0, 0, 0, 0, 0, 0, 0, 1⟩ := by
    simp only [ipv6addrFromStr, deString, bind, Except.bind,
      (by decide : Ipv6Addr.fromStr "::1" = some ⟨0, 0, 0, 0, 0, 0, 0, 1⟩)]
  have hraw : deRawConfig nameServerDoc = .ok ⟨.dns "router.example.com",
      .rfc2136 "tcp://ns1.example.com:53" "ddns-key." "hmac-sha256" "env:TSIG_KEY",
      [⟨⟨0, 0, 0, 0, 0, 0, 0, 1⟩, "nas.example.com"⟩], 300, none⟩ := by
    simp [deRawConfig, nameServerDoc, Toml.required, Toml.orDefault, Toml.field, List.lookup_cons, deRawPrefix,
      deRawDns, splitTag, deList, deHostEntry, deString, bind, Except.bind, Toml.exhausted, hsuffix]
    rfl
  simp only [ValidatedConfig.load, hparse, hraw]
  rfl

def nameServerLibraries : Libraries RemoteNameServer :=
  ⟨.ok (), ⟨fun _ w => (.error "no network", w), fun _ w => w⟩, fun _ _ _ _ => .ok nameServerClient, fun _ _ => .ok ()⟩

/-- What the configuration starts. -/
def nameServerStarted : Started RemoteNameServer :=
  ⟨nameServerConfig, .dnsResolver "router.example.com" 300, nameServerUpdater.toDnsUpdater,
    [(⟨0, 0, 0, 0, 0, 0, 0, 1⟩, "nas.example.com")], none⟩

theorem start_nameServer : start nameServerLibraries nameServerParse nameServerEnv (.ok nameServerText) =
    .ok nameServerStarted := by
  rw [start, load_nameServer]
  rfl

set_option maxRecDepth 4000 in
theorem main_updates_nas : ∃ t n,
    run (observed (servedStep nameServerStarted.setup nameServerStarted.updater)
      (HeardOf.note nameServerStarted.setup)) (.init ⟨fun _ => [], []⟩, .nothing) sampleResolved = some (t, n) ∧
    n.prefixes = [⟨0x2001, 0xdb8, 1, 2, 0, 0, 0, 0⟩] ∧
    ∃ algorithm client log, NamesAlgorithm "hmac-sha256" algorithm ∧
      nameServerLibraries.newRfc2136Tsig "tcp://ns1.example.com:53" "ddns-key." "dGVzdA==".toUTF8.toList algorithm =
        .ok client ∧
      run (servedStep nameServerStarted.setup
          (⟨client.logged⟩ : Rfc2136Updater (Logged RemoteNameServer DnsEvent)).toDnsUpdater)
        (.init ⟨⟨fun _ => [], []⟩, []⟩) sampleResolved = some ⟨t.task, ⟨t.world, log⟩⟩ ∧
      ∀ e ∈ log, UpdateFor (allSuffixes (staticSuffixes nameServerStarted.config) n.discovered) n.prefixes e :=
  ⟨_, _, rfl, rfl, main_updates start_nameServer rfl ⟨fun _ => [], []⟩ (show run _ _ sampleResolved = _ from rfl)⟩

end DdnsIpv6

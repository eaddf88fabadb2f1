import DdnsIpv6.Config
import DdnsIpv6.Util

/-!
# `docker`: hosts from container labels

The Docker daemon is outside: `DockerApi` is what it answers. Networks are a hash map, given here as the list in which
it is iterated. `discover` is best-effort: a container that cannot be used is skipped.
-/

namespace DdnsIpv6

open Lib

/-- `DDNS_DOMAIN_LABEL` -/
def ddnsDomainLabel : String := "ddns.domain"

structure ListContainersOptions where
  all : Bool
  filters : List (String × List String)
  deriving DecidableEq, Repr

structure ContainerSummary where
  id : Option String
  labels : Option (List (String × String))
  deriving DecidableEq, Repr

structure EndpointSettings where
  globalIpv6Address : Option String
  deriving DecidableEq, Repr

structure NetworkSettings where
  networks : Option (List (String × EndpointSettings))
  deriving DecidableEq, Repr

structure ContainerInspect where
  networkSettings : Option NetworkSettings
  deriving DecidableEq, Repr

/-- The answers of the Docker daemon. -/
structure DockerApi where
  listContainers : ListContainersOptions → Except String (List ContainerSummary)
  inspectContainer : String → Except String ContainerInspect

/-- The id and the domain of a listed container, unless it lacks one of them. -/
def labeledContainer (c : ContainerSummary) : Option (String × String) :=
  match c.id with
  | none => none
  | some id =>
    match c.labels with
    | none => none
    | some labels =>
      match labels.lookup ddnsDomainLabel with
      | none => none
      | some domain => some (id, domain)

/-- List the containers with the label, as pairs of an id and a domain. -/
def listLabeledContainers (api : DockerApi) : Except String (List (String × String)) :=
  match api.listContainers ⟨true, [("label", [ddnsDomainLabel])]⟩ with
  | .error e => .error e
  | .ok containers => .ok (containers.filterMap labeledContainer)

/-- An address without its zone id: what stands before the first `%`. -/
def stripZone (addr : String) : String := String.ofList (addr.toList.takeWhile (· ≠ '%'))

/-- One network of a container: its suffix, unless the loop goes on. -/
def endpointSuffix (endpoint : EndpointSettings) : Option Ipv6Addr :=
  match endpoint.globalIpv6Address with
  | none => none
  | some addrStr =>
    if addrStr = "" then none
    else match Ipv6Addr.fromStr (stripZone addrStr) with
      | none => none
      | some addr => if isGlobalUnicast addr then some (suffixFromAddr addr) else none

/-- The loop over the networks of a container. -/
def firstSuffix (networks : List (String × EndpointSettings)) : Option Ipv6Addr :=
  networks.findSome? fun n => endpointSuffix n.2

/-- Inspect a container and take the suffix of its first global unicast address. -/
def extractSuffix (api : DockerApi) (containerId : String) : Except Error (Option Ipv6Addr) :=
  match api.inspectContainer containerId with
  | .error e => .error (.other e)
  | .ok inspect =>
    match inspect.networkSettings.bind NetworkSettings.networks with
    | none => .ok none
    | some networks => .ok (firstSuffix networks)

/-- The loop over the labeled containers. -/
def discoverHosts (api : DockerApi) : List (String × String) → List HostEntry
  | [] => []
  | (containerId, domain) :: containers =>
    if domain.isEmpty then discoverHosts api containers
    else match extractSuffix api containerId with
      | .ok (some suffix) => ⟨suffix, domain⟩ :: discoverHosts api containers
      | .ok none => discoverHosts api containers
      | .error _ => discoverHosts api containers

/-- Discover the labeled containers. -/
def discover (api : DockerApi) : List HostEntry :=
  match listLabeledContainers api with
  | .error _ => []
  | .ok containers => discoverHosts api containers

/-! ## One container at a time -/

/-- The host of a labeled container. -/
def labeledHost (api : DockerApi) (labeled : String × String) : Option HostEntry :=
  if labeled.2.isEmpty then none
  else match extractSuffix api labeled.1 with
    | .ok (some suffix) => some ⟨suffix, labeled.2⟩
    | _ => none

variable {api : DockerApi} {containerId domain : String} {suffix : Ipv6Addr} {h : HostEntry}

theorem labeledHost_eq_some_iff : labeledHost api (containerId, domain) = some h ↔
    domain ≠ "" ∧ ∃ suffix, extractSuffix api containerId = .ok (some suffix) ∧ h = ⟨suffix, domain⟩ := by
  unfold labeledHost
  split
  · rename_i hempty
    have hd : domain = "" := String.isEmpty_iff.1 hempty
    simp [hd]
  · rename_i hempty
    have hne : domain ≠ "" := fun hd => hempty (String.isEmpty_iff.2 hd)
    split
    · rename_i suffix hs
      simp [hne, hs, eq_comm]
    · rename_i hnone
      simp only [reduceCtorEq, false_iff, not_and, not_exists]
      rintro - suffix hs -
      exact hnone suffix hs

theorem labeledHost_eq_none (hs : ∀ suffix, extractSuffix api containerId ≠ .ok (some suffix)) :
    labeledHost api (containerId, domain) = none := by
  rw [Option.eq_none_iff_forall_ne_some]
  intro h hh
  obtain ⟨-, suffix, hsuffix, -⟩ := labeledHost_eq_some_iff.1 hh
  exact hs suffix hsuffix

/-- **The loop is one pass** that takes every container on its own. -/
theorem discoverHosts_eq (labeled : List (String × String)) :
    discoverHosts api labeled = labeled.filterMap (labeledHost api) := by
  induction labeled with
  | nil => rfl
  | cons l labeled ih =>
    obtain ⟨containerId, domain⟩ := l
    by_cases hempty : domain.isEmpty
    · have hnone : labeledHost api (containerId, domain) = none := if_pos hempty
      rw [discoverHosts, if_pos hempty, List.filterMap_cons_none hnone, ih]
    · rw [discoverHosts, if_neg hempty]
      split
      · rename_i suffix hs
        have hne : domain ≠ "" := fun hd => hempty (String.isEmpty_iff.2 hd)
        rw [List.filterMap_cons_some (labeledHost_eq_some_iff.2 ⟨hne, suffix, hs, rfl⟩), ih]
      · rename_i hs
        rw [List.filterMap_cons_none (labeledHost_eq_none (by simp [hs])), ih]
      · rename_i e hs
        rw [List.filterMap_cons_none (labeledHost_eq_none (by simp [hs])), ih]

/-! ## Discovered suffixes -/

/-- A suffix is the lower half of a global unicast address of the network. -/
theorem endpointSuffix_eq_some {endpoint : EndpointSettings} (h : endpointSuffix endpoint = some suffix) :
    ∃ addrStr a, endpoint.globalIpv6Address = some addrStr ∧ Ipv6Addr.fromStr (stripZone addrStr) = some a ∧
      a.GlobalUnicast ∧ suffix = suffixFromAddr a := by
  unfold endpointSuffix at h
  split at h
  · cases h
  · rename_i addrStr ha
    split at h
    · cases h
    · split at h
      · cases h
      · rename_i a hp
        split at h
        · rename_i hg
          cases h
          exact ⟨addrStr, a, ha, hp, isGlobalUnicast_iff.1 hg, rfl⟩
        · cases h

/-- A container yields the first suffix of its networks. -/
theorem extractSuffix_eq_some_iff : extractSuffix api containerId = .ok (some suffix) ↔
    ∃ inspect networks, api.inspectContainer containerId = .ok inspect ∧
      inspect.networkSettings.bind NetworkSettings.networks = some networks ∧ firstSuffix networks = some suffix := by
  constructor
  · intro h
    unfold extractSuffix at h
    split at h
    · cases h
    · rename_i inspect hi
      split at h
      · cases h
      · rename_i networks hnetworks
        exact ⟨inspect, networks, hi, hnetworks, Except.ok.inj h⟩
  · rintro ⟨inspect, networks, hi, hnetworks, hs⟩
    simp only [extractSuffix, hi, hnetworks, hs]

/-- A suffix that a container yields has no upper half. -/
theorem extractSuffix_upper64 (h : extractSuffix api containerId = .ok (some suffix)) : suffix.upper64 = 0 := by
  obtain ⟨_, networks, _, _, hs⟩ := extractSuffix_eq_some_iff.1 h
  obtain ⟨n, _, hn⟩ := List.exists_of_findSome?_eq_some hs
  obtain ⟨_, a, _, _, _, rfl⟩ := endpointSuffix_eq_some hn
  exact suffixFromAddr_upper64 a

/-- **Discovered hosts have proper suffixes.** -/
theorem discover_upper64 : ∀ h ∈ discover api, h.suffix.upper64 = 0 := by
  intro h hm
  unfold discover at hm
  split at hm
  · exact absurd hm List.not_mem_nil
  · rw [discoverHosts_eq] at hm
    obtain ⟨⟨containerId, domain⟩, -, hh⟩ := List.mem_filterMap.1 hm
    obtain ⟨-, suffix, hs, rfl⟩ := labeledHost_eq_some_iff.1 hh
    exact extractSuffix_upper64 hs

end DdnsIpv6

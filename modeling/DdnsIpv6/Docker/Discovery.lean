import DdnsIpv6.Docker.Order

/-!
# Discovery, exactly

Discovery gives every listed container at most one host (`hostEntry`), whatever the others are (`discover_eq`). It gives
one to exactly the containers that are `Discoverable`: labeled with a domain, inspected, and with a global unicast
address in some network. So the discovered hosts are those of the discoverable containers in the order of the listing,
and what becomes of one container does not touch the hosts of the others (`discover_exact`).
-/

namespace DdnsIpv6

open Lib

/-! ## Discoverable containers -/

/-- The container has an id and the label. -/
def ContainerSummary.Labeled (c : ContainerSummary) (id domain : String) : Prop :=
  c.id = some id ∧ ∃ labels, c.labels = some labels ∧ labels.lookup ddnsDomainLabel = some domain

/-- The container was inspected, and `a` is a global unicast address of it in some network. -/
def DockerApi.HasAddress (api : DockerApi) (id : String) (a : Ipv6Addr) : Prop :=
  ∃ inspect networks, api.inspectContainer id = .ok inspect ∧
    inspect.networkSettings.bind NetworkSettings.networks = some networks ∧ ∃ n ∈ networks, n.2.GlobalAddress a

/-- The container has a host to discover. -/
def ContainerSummary.Discoverable (c : ContainerSummary) (api : DockerApi) : Prop :=
  ∃ id domain a, c.Labeled id domain ∧ domain ≠ "" ∧ api.HasAddress id a

/-- The host is one of the container: its domain, and the lower half of an address of it. -/
def ContainerSummary.Announces (c : ContainerSummary) (api : DockerApi) (h : HostEntry) : Prop :=
  ∃ id a, c.Labeled id h.domain ∧ api.HasAddress id a ∧ h.suffix.upper64 = 0 ∧ h.suffix.lower64 = a.lower64

/-! ## One container -/

/-- The host of a listed container. -/
def hostEntry (api : DockerApi) (c : ContainerSummary) : Option HostEntry :=
  (labeledContainer c).bind (labeledHost api)

variable {api api' : DockerApi} {c c' : ContainerSummary} {id domain : String} {suffix a : Ipv6Addr} {h : HostEntry}
  {containers before after : List ContainerSummary}

theorem labeledContainer_eq_some_iff : labeledContainer c = some (id, domain) ↔ c.Labeled id domain := by
  unfold labeledContainer ContainerSummary.Labeled
  cases c.id with
  | none => simp
  | some id' =>
    cases c.labels with
    | none => simp
    | some labels => cases hd : labels.lookup ddnsDomainLabel <;> simp [hd]

theorem firstSuffix_eq_some {networks : List (String × EndpointSettings)} (h : firstSuffix networks = some suffix) :
    ∃ n ∈ networks, ∃ a, n.2.GlobalAddress a ∧ suffix = suffixFromAddr a := by
  obtain ⟨n, hn, hs⟩ := List.exists_of_findSome?_eq_some h
  exact ⟨n, hn, endpointSuffix_eq_some_iff.1 hs⟩

theorem firstSuffix_isSome {networks : List (String × EndpointSettings)} {n : String × EndpointSettings}
    (hn : n ∈ networks) (ha : n.2.GlobalAddress a) : ∃ suffix, firstSuffix networks = some suffix := by
  have hs : endpointSuffix n.2 = some (suffixFromAddr a) := endpointSuffix_eq_some_iff.2 ⟨a, ha, rfl⟩
  cases hf : firstSuffix networks with
  | none => cases (List.findSome?_eq_none_iff.1 hf n hn).symm.trans hs
  | some suffix => exact ⟨suffix, rfl⟩

/-- A suffix is the lower half of an address of the container, -/
theorem hasAddress_of_extractSuffix (h : extractSuffix api id = .ok (some suffix)) :
    ∃ a, api.HasAddress id a ∧ suffix = suffixFromAddr a := by
  obtain ⟨inspect, networks, hi, hnetworks, hfirst⟩ := extractSuffix_eq_some_iff.1 h
  obtain ⟨n, hn, a, ha, hs⟩ := firstSuffix_eq_some hfirst
  exact ⟨a, ⟨inspect, networks, hi, hnetworks, n, hn, ha⟩, hs⟩

/-- and with an address there is one. -/
theorem extractSuffix_of_hasAddress (h : api.HasAddress id a) : ∃ suffix, extractSuffix api id = .ok (some suffix) := by
  obtain ⟨inspect, networks, hi, hnetworks, n, hn, ha⟩ := h
  obtain ⟨suffix, hs⟩ := firstSuffix_isSome hn ha
  exact ⟨suffix, extractSuffix_eq_some_iff.2 ⟨inspect, networks, hi, hnetworks, hs⟩⟩

/-- The host of a container is one that it announces. -/
theorem announces_of_hostEntry (hc : hostEntry api c = some h) : c.Announces api h := by
  obtain ⟨⟨id, domain⟩, hl, hh⟩ := Option.bind_eq_some_iff.1 hc
  obtain ⟨-, suffix, hs, rfl⟩ := labeledHost_eq_some_iff.1 hh
  obtain ⟨a, ha, rfl⟩ := hasAddress_of_extractSuffix hs
  exact ⟨id, a, labeledContainer_eq_some_iff.1 hl, ha, suffixFromAddr_upper64 a, suffixFromAddr_lower64 a⟩

/-- Exactly the discoverable containers have a host. -/
theorem hostEntry_isSome_iff : (hostEntry api c).isSome ↔ c.Discoverable api := by
  rw [Option.isSome_iff_exists]
  constructor
  · rintro ⟨h, hc⟩
    obtain ⟨⟨id, domain⟩, hl, hh⟩ := Option.bind_eq_some_iff.1 hc
    obtain ⟨hne, suffix, hs, -⟩ := labeledHost_eq_some_iff.1 hh
    obtain ⟨a, ha, -⟩ := hasAddress_of_extractSuffix hs
    exact ⟨id, domain, a, labeledContainer_eq_some_iff.1 hl, hne, ha⟩
  · rintro ⟨id, domain, a, hl, hne, ha⟩
    obtain ⟨suffix, hs⟩ := extractSuffix_of_hasAddress ha
    refine ⟨⟨suffix, domain⟩, Option.bind_eq_some_iff.2 ⟨(id, domain), labeledContainer_eq_some_iff.2 hl, ?_⟩⟩
    exact labeledHost_eq_some_iff.2 ⟨hne, suffix, hs, rfl⟩

instance : Decidable (c.Discoverable api) := decidable_of_iff _ hostEntry_isSome_iff

/-! ## The listing -/

/-- The hosts are those of the discoverable containers: one for each, in their order, and no other. -/
def Discovers (api : DockerApi) (containers : List ContainerSummary) (hosts : List HostEntry) : Prop :=
  List.Forall₂ (fun c h => c.Announces api h) (containers.filter fun c => c.Discoverable api) hosts

/-- **Every container on its own**: the loops are one pass over the listing. -/
theorem discover_eq (hlist : api.listContainers ⟨true, [("label", [ddnsDomainLabel])]⟩ = .ok containers) :
    discover api = containers.filterMap (hostEntry api) := by
  simp only [discover, listLabeledContainers, hlist, discoverHosts_eq, List.filterMap_filterMap]
  rfl

theorem discovers_filterMap (containers : List ContainerSummary) :
    Discovers api containers (containers.filterMap (hostEntry api)) := by
  induction containers with
  | nil => exact .nil
  | cons c containers ih =>
    unfold Discovers at ih ⊢
    cases hc : hostEntry api c with
    | none =>
      have hnot : ¬c.Discoverable api := by
        rw [← hostEntry_isSome_iff, hc]
        exact Bool.false_ne_true
      rw [List.filterMap_cons_none hc, List.filter_cons_of_neg (by simpa using hnot)]
      exact ih
    | some h =>
      have hdisc : c.Discoverable api := by
        rw [← hostEntry_isSome_iff, hc]
        rfl
      rw [List.filterMap_cons_some hc, List.filter_cons_of_pos (by simpa using hdisc)]
      exact .cons (announces_of_hostEntry hc) ih

/-- The host of a container depends on the daemon through its own inspection only. -/
theorem hostEntry_congr (hc : ∀ id, c.id = some id → api'.inspectContainer id = api.inspectContainer id) :
    hostEntry api' c = hostEntry api c := by
  refine Option.bind_congr fun ⟨id, domain⟩ hl => ?_
  have hinspect := hc id (labeledContainer_eq_some_iff.1 hl).1
  simp only [labeledHost, extractSuffix_congr hinspect]

/-- **Discovery loses and invents nothing.** -/
theorem discover_exact (hlist : api.listContainers ⟨true, [("label", [ddnsDomainLabel])]⟩ = .ok containers) :
    Discovers api containers (discover api) ∧
    ∀ before c after, containers = before ++ c :: after →
      ∃ hostsBefore own hostsAfter, discover api = hostsBefore ++ own ++ hostsAfter ∧
        Discovers api before hostsBefore ∧ Discovers api [c] own ∧ Discovers api after hostsAfter ∧
        ∀ (api' : DockerApi) (c' : ContainerSummary),
          api'.listContainers ⟨true, [("label", [ddnsDomainLabel])]⟩ = .ok (before ++ c' :: after) →
          (∀ o ∈ before ++ after, ∀ id, o.id = some id → api'.inspectContainer id = api.inspectContainer id) →
          ∃ own', discover api' = hostsBefore ++ own' ++ hostsAfter ∧ Discovers api' [c'] own' := by
  have hall : ∀ l, Discovers api l (l.filterMap (hostEntry api)) := discovers_filterMap
  constructor
  · rw [discover_eq hlist]
    exact hall containers
  · rintro before c after rfl
    have hsplit : ∀ (f : ContainerSummary → Option HostEntry) (c : ContainerSummary),
        (before ++ c :: after).filterMap f = before.filterMap f ++ [c].filterMap f ++ after.filterMap f := by
      intro f c
      rw [List.append_cons, List.filterMap_append, List.filterMap_append]
    refine ⟨_, _, _, (discover_eq hlist).trans (hsplit _ c), hall before, hall [c], hall after, ?_⟩
    intro api' c' hlist' hothers
    have hsame : ∀ l ⊆ before ++ after, l.filterMap (hostEntry api') = l.filterMap (hostEntry api) := fun l hl =>
      List.filterMap_congr fun o ho => hostEntry_congr (hothers o (hl ho))
    refine ⟨[c'].filterMap (hostEntry api'), ?_, discovers_filterMap [c']⟩
    rw [discover_eq hlist', hsplit, hsame before (List.subset_append_left _ _),
      hsame after (List.subset_append_right _ _)]

/-- A listing in which two containers out of nine have a host: the others lack an id, the labels, the label, a domain,
an inspection, a readable address, a global one. -/
def mixedContainers : List ContainerSummary :=
  [⟨some "a", some [("ddns.domain", "nas.example.com")]⟩, ⟨none, some [("ddns.domain", "x.example.com")]⟩,
    ⟨some "b", none⟩, ⟨some "c", some [("app", "db")]⟩, ⟨some "d", some [("ddns.domain", "")]⟩,
    ⟨some "e", some [("ddns.domain", "gone.example.com")]⟩, ⟨some "f", some [("ddns.domain", "bad.example.com")]⟩,
    ⟨some "g", some [("ddns.domain", "ula.example.com")]⟩, ⟨some "h", some [("ddns.domain", "git.example.com")]⟩]

/-- The daemon that lists them. -/
def mixedDaemon : DockerApi where
  listContainers := fun _ => .ok mixedContainers
  inspectContainer := fun id =>
    if id = "e" then .error "no such container"
    else if id = "f" then .ok ⟨some ⟨some [("bridge", ⟨some "2001:db8::g"⟩)]⟩⟩
    else if id = "g" then .ok ⟨some ⟨some [("bridge", ⟨some "fd00::3"⟩)]⟩⟩
    else if id = "h" then .ok ⟨some ⟨some [("none", ⟨none⟩), ("ipvlan", ⟨some "2001:db8:1::4%eth0"⟩)]⟩⟩
    else .ok ⟨some ⟨some [("bridge", ⟨some "2001:db8:1::2"⟩)]⟩⟩

/-- Both hosts are found. -/
theorem discover_mixed : Discovers mixedDaemon mixedContainers
    [⟨⟨0, 0, 0, 0, 0, 0, 0, 2⟩, "nas.example.com"⟩, ⟨⟨0, 0, 0, 0, 0, 0, 0, 4⟩, "git.example.com"⟩] := by
  have hlist : mixedDaemon.listContainers ⟨true, [("label", [ddnsDomainLabel])]⟩ = .ok mixedContainers := rfl
  have hfound : discover mixedDaemon =
      [⟨⟨0, 0, 0, 0, 0, 0, 0, 2⟩, "nas.example.com"⟩, ⟨⟨0, 0, 0, 0, 0, 0, 0, 4⟩, "git.example.com"⟩] := by decide
  rw [← hfound]
  exact (discover_exact hlist).1

end DdnsIpv6

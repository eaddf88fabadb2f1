import DdnsIpv6.Docker

/-!
# The order of a container's networks

The networks of a container are a hash map: two inspections of the same container may iterate them in two orders
(`Reordered`). The suffix of a container is then the same in all orders just if its global unicast addresses have one
lower half (`orderIndependent_iff`), and discovery as a whole is stable where this holds of all containers
(`discover_reordered`).
-/

namespace DdnsIpv6

open Lib

/-! ## The first value found in any order -/

section FirstFound

variable {α β : Type*} {f : α → Option β} {l : List α}

/-- All values found are the same. -/
def OneValue (f : α → Option β) (l : List α) : Prop := ∀ x ∈ l, ∀ y ∈ l, ∀ a b, f x = some a → f y = some b → a = b

theorem OneValue.findSome? (h : OneValue f l) {x : α} {a : β} (hx : x ∈ l) (ha : f x = some a) :
    l.findSome? f = some a := by
  cases hl : l.findSome? f with
  | none => exact absurd ((List.findSome?_eq_none_iff.1 hl x hx).symm.trans ha) (nomatch ·)
  | some b =>
    obtain ⟨y, hy, hb⟩ := List.exists_of_findSome?_eq_some hl
    rw [h x hx y hy a b ha hb]

/-- The first value found does not depend on the order just if there is only one to find. -/
theorem findSome?_perm_iff :
    (∀ l₁ l₂ : List α, l.Perm l₁ → l.Perm l₂ → l₁.findSome? f = l₂.findSome? f) ↔ OneValue f l := by
  constructor
  · intro h x hx y hy a b ha hb
    -- each of the two values is found where its element comes first
    obtain ⟨s, t, rfl⟩ := List.append_of_mem hx
    obtain ⟨s', t', hl⟩ := List.append_of_mem hy
    have hfound := h (x :: (s ++ t)) (y :: (s' ++ t')) List.perm_middle (hl ▸ List.perm_middle)
    rw [List.findSome?_cons, List.findSome?_cons, ha, hb] at hfound
    exact Option.some.inj hfound
  · intro h l₁ l₂ h₁ h₂
    cases hl : l₂.findSome? f with
    | none =>
      rw [List.findSome?_eq_none_iff] at hl ⊢
      exact fun x hx => hl x (h₂.mem_iff.1 (h₁.mem_iff.2 hx))
    | some b =>
      obtain ⟨y, hy, hb⟩ := List.exists_of_findSome?_eq_some hl
      have hone : OneValue f l₁ := fun x hx z hz => h x (h₁.mem_iff.2 hx) z (h₁.mem_iff.2 hz)
      exact hone.findSome? (h₁.mem_iff.1 (h₂.mem_iff.2 hy)) hb

end FirstFound

/-! ## The suffix of a container -/

/-- `a` is the address of the network, without its zone id, and a global unicast address. -/
def EndpointSettings.GlobalAddress (endpoint : EndpointSettings) (a : Ipv6Addr) : Prop :=
  ∃ addrStr, endpoint.globalIpv6Address = some addrStr ∧ Ipv6Addr.fromStr (stripZone addrStr) = some a ∧
    a.GlobalUnicast

theorem endpointSuffix_eq_some_iff {endpoint : EndpointSettings} {suffix : Ipv6Addr} :
    endpointSuffix endpoint = some suffix ↔ ∃ a, endpoint.GlobalAddress a ∧ suffix = suffixFromAddr a := by
  constructor
  · intro h
    obtain ⟨addrStr, a, hstr, ha, hg, hs⟩ := endpointSuffix_eq_some h
    exact ⟨a, ⟨addrStr, hstr, ha, hg⟩, hs⟩
  · rintro ⟨a, ⟨addrStr, hstr, ha, hg⟩, rfl⟩
    have hempty : Ipv6Addr.fromStr (stripZone "") = none := by decide
    have hne : addrStr ≠ "" := by
      rintro rfl
      rw [hempty] at ha
      cases ha
    simp only [endpointSuffix, hstr, if_neg hne, ha, if_pos (isGlobalUnicast_iff.2 hg)]

/-- The same inspection result, with its networks iterated in another order. -/
inductive ContainerInspect.Reordered : ContainerInspect → ContainerInspect → Prop
  | refl (inspect : ContainerInspect) : Reordered inspect inspect
  | perm {networks networks' : List (String × EndpointSettings)} (h : networks.Perm networks') :
      Reordered ⟨some ⟨some networks⟩⟩ ⟨some ⟨some networks'⟩⟩

/-- All global unicast addresses of the container have one lower half. -/
def ContainerInspect.OneSuffix (inspect : ContainerInspect) : Prop :=
  ∀ networks, inspect.networkSettings.bind NetworkSettings.networks = some networks →
    ∀ n ∈ networks, ∀ n' ∈ networks, ∀ a a', n.2.GlobalAddress a → n'.2.GlobalAddress a' → a.lower64 = a'.lower64

/-- Two inspections of the container yield one suffix, in whatever orders its networks are iterated. -/
def ContainerInspect.OrderIndependent (inspect : ContainerInspect) : Prop :=
  ∀ (api api' : DockerApi) (containerId : String) (inspect₁ inspect₂ : ContainerInspect),
    inspect.Reordered inspect₁ → inspect.Reordered inspect₂ → api.inspectContainer containerId = .ok inspect₁ →
      api'.inspectContainer containerId = .ok inspect₂ → extractSuffix api containerId = extractSuffix api' containerId

theorem suffixFromAddr_eq_iff {a a' : Ipv6Addr} : suffixFromAddr a = suffixFromAddr a' ↔ a.lower64 = a'.lower64 := by
  refine ⟨fun h => ?_, fun h => Ipv6Addr.ext_halves ?_ h⟩
  · rw [← suffixFromAddr_lower64 a, h, suffixFromAddr_lower64]
  · rw [suffixFromAddr_upper64, suffixFromAddr_upper64]

theorem extractSuffix_networks {api : DockerApi} {containerId : String} {networks : List (String × EndpointSettings)}
    (h : api.inspectContainer containerId = .ok ⟨some ⟨some networks⟩⟩) :
    extractSuffix api containerId = .ok (firstSuffix networks) := by
  simp only [extractSuffix, h, Option.bind_some]

theorem extractSuffix_congr {api api' : DockerApi} {containerId : String}
    (h : api.inspectContainer containerId = api'.inspectContainer containerId) :
    extractSuffix api containerId = extractSuffix api' containerId := by
  simp only [extractSuffix, h]

/-- One suffix, in terms of the loop over the networks. -/
theorem oneSuffix_networks {networks : List (String × EndpointSettings)} :
    ContainerInspect.OneSuffix ⟨some ⟨some networks⟩⟩ ↔ OneValue (fun n => endpointSuffix n.2) networks := by
  constructor
  · intro h n hn n' hn' s s' hs hs'
    obtain ⟨a, ha, rfl⟩ := endpointSuffix_eq_some_iff.1 hs
    obtain ⟨a', ha', rfl⟩ := endpointSuffix_eq_some_iff.1 hs'
    exact suffixFromAddr_eq_iff.2 (h networks rfl n hn n' hn' a a' ha ha')
  · rintro h _ ⟨⟩ n hn n' hn' a a' ha ha'
    exact suffixFromAddr_eq_iff.1 (h n hn n' hn' _ _ (endpointSuffix_eq_some_iff.2 ⟨a, ha, rfl⟩)
      (endpointSuffix_eq_some_iff.2 ⟨a', ha', rfl⟩))

/-- An inspection result has only itself as an order, unless it has networks. -/
theorem ContainerInspect.reordered_cases (inspect : ContainerInspect) :
    (∃ networks, inspect = ⟨some ⟨some networks⟩⟩) ∨
      inspect.networkSettings.bind NetworkSettings.networks = none ∧ ∀ i, inspect.Reordered i → i = inspect := by
  match inspect with
  | ⟨some ⟨some networks⟩⟩ => exact Or.inl ⟨networks, rfl⟩
  | ⟨some ⟨none⟩⟩ => exact Or.inr ⟨rfl, fun _ h => by cases h; rfl⟩
  | ⟨none⟩ => exact Or.inr ⟨rfl, fun _ h => by cases h; rfl⟩

theorem ContainerInspect.reordered_networks {networks : List (String × EndpointSettings)} {i : ContainerInspect} :
    ContainerInspect.Reordered ⟨some ⟨some networks⟩⟩ i ↔ ∃ networks', i = ⟨some ⟨some networks'⟩⟩ ∧
      networks.Perm networks' := by
  constructor
  · rintro (_ | h)
    · exact ⟨networks, rfl, List.Perm.refl _⟩
    · exact ⟨_, rfl, h⟩
  · rintro ⟨networks', rfl, h⟩
    exact .perm h

/-- Two orders are enough to tell two suffixes apart. -/
theorem ContainerInspect.OrderIndependent.oneSuffix {inspect : ContainerInspect} (h : inspect.OrderIndependent) :
    inspect.OneSuffix := by
  rcases inspect.reordered_cases with ⟨networks, rfl⟩ | ⟨hnone, -⟩
  · rw [oneSuffix_networks, ← findSome?_perm_iff]
    intro l₁ l₂ h₁ h₂
    have hsame := h ⟨fun _ => .ok [], fun _ => .ok ⟨some ⟨some l₁⟩⟩⟩ ⟨fun _ => .ok [], fun _ => .ok ⟨some ⟨some l₂⟩⟩⟩
      "" _ _ (.perm h₁) (.perm h₂) rfl rfl
    rw [extractSuffix_networks rfl, extractSuffix_networks rfl] at hsame
    exact Except.ok.inj hsame
  · intro networks hsome
    rw [hnone] at hsome
    cases hsome

theorem ContainerInspect.OneSuffix.orderIndependent {inspect : ContainerInspect} (h : inspect.OneSuffix) :
    inspect.OrderIndependent := by
  intro api api' containerId i₁ i₂ h₁ h₂ hi₁ hi₂
  rcases inspect.reordered_cases with ⟨networks, rfl⟩ | ⟨-, hself⟩
  · rw [oneSuffix_networks, ← findSome?_perm_iff] at h
    obtain ⟨l₁, rfl, hl₁⟩ := ContainerInspect.reordered_networks.1 h₁
    obtain ⟨l₂, rfl, hl₂⟩ := ContainerInspect.reordered_networks.1 h₂
    rw [extractSuffix_networks hi₁, extractSuffix_networks hi₂]
    exact congrArg Except.ok (h l₁ l₂ hl₁ hl₂)
  · rw [hself i₁ h₁] at hi₁
    rw [hself i₂ h₂] at hi₂
    exact extractSuffix_congr (hi₁.trans hi₂.symm)

/-- **Map order.** The suffix of a container does not depend on the order of its networks just if all its global unicast
addresses have one lower half. -/
theorem orderIndependent_iff (inspect : ContainerInspect) : inspect.OrderIndependent ↔ inspect.OneSuffix :=
  ⟨fun h => h.oneSuffix, fun h => h.orderIndependent⟩

/-- A container in two networks, with another address in each. -/
def sampleNetworks : List (String × EndpointSettings) :=
  [("bridge", ⟨some "2001:db8:1::2"⟩), ("lan", ⟨some "2001:db8:1::3"⟩)]

theorem not_orderIndependent : ¬∀ inspect : ContainerInspect, inspect.OrderIndependent := by
  intro h
  have hsame := h ⟨some ⟨some sampleNetworks⟩⟩
    ⟨fun _ => .ok [], fun _ => .ok ⟨some ⟨some sampleNetworks⟩⟩⟩
    ⟨fun _ => .ok [], fun _ => .ok ⟨some ⟨some sampleNetworks.reverse⟩⟩⟩ "nas" _ _ (.refl _)
    (.perm (List.reverse_perm _).symm) rfl rfl
  exact absurd hsame (by decide)

/-! ## Discovery -/

/-- Two states of the Docker daemon that differ in the order of networks only. -/
structure DockerApi.Reordered (api api' : DockerApi) : Prop where
  listed : api.listContainers = api'.listContainers
  inspected : ∀ id, api.inspectContainer id = api'.inspectContainer id ∨
    ∃ i i', api.inspectContainer id = .ok i ∧ api'.inspectContainer id = .ok i' ∧ i.Reordered i'

theorem discoverHosts_congr {api api' : DockerApi} (h : ∀ id, extractSuffix api id = extractSuffix api' id) :
    ∀ containers, discoverHosts api containers = discoverHosts api' containers := by
  intro containers
  rw [discoverHosts_eq, discoverHosts_eq]
  exact List.filterMap_congr fun c _ => by rw [labeledHost, labeledHost, h c.1]

/-- **Discovery is stable** from one cycle to the next while the containers have one suffix each. -/
theorem discover_reordered {api api' : DockerApi} (h : api.Reordered api')
    (hone : ∀ id i, api.inspectContainer id = .ok i → i.OneSuffix) : discover api = discover api' := by
  have hextract : ∀ id, extractSuffix api id = extractSuffix api' id := by
    intro id
    rcases h.inspected id with heq | ⟨i, i', hi, hi', hr⟩
    · exact extractSuffix_congr heq
    · exact (hone id i hi).orderIndependent api api' id i i' (.refl i) hr hi hi'
  simp only [discover, listLabeledContainers, h.listed, discoverHosts_congr hextract]

end DdnsIpv6

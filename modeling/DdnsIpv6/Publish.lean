import DdnsIpv6.Cycle
import DdnsIpv6.Sources
import DdnsIpv6.Lib.Run

/-!
# What gets published

A run of the daemon as its sources see it: packets arrive and update cycles run, in any order. A cycle keeps a record of
what its detector was given, and every call of every cycle publishes the upper half of an address that the source
presented and that this cycle's `detect` returned, with the lower half of a host of this cycle (`run_published`). These
calls are all that the updater gets: made one after the other they lead from its first world to its last.
-/

namespace DdnsIpv6

open Lib Lib.WriteThrough Prefix

variable {σ : Type*}

/-- An update cycle: what its detector was given, what it detected, its host list and what it did. -/
structure CycleRecord (σ : Type*) where
  received : List (List UInt8)
  answers : Answers
  detected : Except Error Ipv6Addr
  hosts : List (Ipv6Addr × String)
  result : CycleResult σ

/-- The packets received so far, the daemon, and the cycles so far. -/
structure SourceState (σ : Type*) where
  received : List (List UInt8)
  daemon : Daemon σ
  cycles : List (CycleRecord σ)

inductive SourceEvent where
  /-- The socket receives a packet. -/
  | packet (data : List UInt8)
  /-- An update cycle, with the answers of the queried sources and of Docker. -/
  | cycle (answers : Answers) (staticSuffixes : List (Ipv6Addr × String)) (discovered : Option (List HostEntry))

/-- One event; all of them are possible at any time. -/
def sourceStep (method : PrefixConfig) (u : DnsUpdater σ) (s : SourceState σ) : SourceEvent → Option (SourceState σ)
  | .packet data => some { s with received := s.received ++ [data] }
  | .cycle answers staticSuffixes discovered =>
    let detected := detect method (lastPrefix s.received) answers
    let result := runUpdateCycle u detected staticSuffixes discovered s.daemon
    let hosts := allSuffixes staticSuffixes (discovered.getD [])
    some { s with daemon := result.state, cycles := ⟨s.received, answers, detected, hosts, result⟩ :: s.cycles }

/-- A call of the cycle `c` for `domain` and `addr` is right: the address is global, its upper half is that of an
address which the source presented and `detect` returned, and its lower half is that of a host of the domain. -/
structure Published (method : PrefixConfig) (c : CycleRecord σ) (domain : String) (addr : Ipv6Addr) : Prop where
  global : addr.GlobalUnicast
  source : ∃ p a, c.detected = .ok p ∧ Presented method c.received c.answers a ∧ DetectedFrom a p ∧
    addr.upper64 = a.upper64
  host : ∃ e ∈ c.hosts, e.2 = domain ∧ addr.lower64 = e.1.lower64

/-- All cycles so far published rightly. -/
def AllPublished (method : PrefixConfig) (s : SourceState σ) : Prop :=
  ∀ c ∈ s.cycles, ∀ call ∈ calls c.result.visits, Published method c call.1 call.2

variable {method : PrefixConfig} {u : DnsUpdater σ} {s t : SourceState σ}

/-- The calls of one cycle. -/
theorem cycle_published {received : List (List UInt8)} {answers : Answers}
    {staticSuffixes : List (Ipv6Addr × String)} {discovered : Option (List HostEntry)} {d : Daemon σ}
    {call : String × Ipv6Addr}
    (h : call ∈
      calls (runUpdateCycle u (detect method (lastPrefix received) answers) staticSuffixes discovered d).visits) :
    Published method ⟨received, answers, detect method (lastPrefix received) answers,
      allSuffixes staticSuffixes (discovered.getD []),
      runUpdateCycle u (detect method (lastPrefix received) answers) staticSuffixes discovered d⟩ call.1 call.2 := by
  cases hd : detect method (lastPrefix received) answers with
  | error e =>
    rw [hd] at h
    exact absurd h List.not_mem_nil
  | ok p =>
    rw [hd, runUpdateCycle_visits] at h
    obtain ⟨e, he, rfl⟩ := List.mem_map.1 (mem_of_mem_calls h)
    obtain ⟨a, ha, hfrom⟩ := detect_ok hd
    exact ⟨(Ipv6Addr.globalUnicast_congr (combine_upper64 p e.1)).2 hfrom.globalUnicast,
      ⟨p, a, rfl, ha, hfrom, (combine_upper64 p e.1).trans hfrom.upper⟩, ⟨e, he, rfl, combine_lower64 p e.1⟩⟩

/-- One event keeps it. -/
theorem sourceStep_published {e : SourceEvent} (hi : AllPublished method s) (h : sourceStep method u s e = some t) :
    AllPublished method t := by
  cases e with
  | packet data =>
    cases h
    exact hi
  | cycle answers staticSuffixes discovered =>
    cases h
    intro c hc
    rcases List.mem_cons.1 hc with rfl | hc
    · exact fun call hcall => cycle_published hcall
    · exact hi c hc

/-- What the cycles so far did, host by host, in order. -/
def SourceState.visits (s : SourceState σ) : List (HostVisit σ) := s.cycles.reverse.flatMap fun c => c.result.visits

/-- One event makes the calls it reports. -/
theorem sourceStep_made {e : SourceEvent} {w : σ} (hi : Made u.setRecord w s.visits s.daemon.store)
    (h : sourceStep method u s e = some t) : Made u.setRecord w t.visits t.daemon.store := by
  cases e with
  | packet data =>
    cases h
    exact hi
  | cycle answers staticSuffixes discovered =>
    cases h
    have hcycle : Made u.setRecord s.daemon.store
        (runUpdateCycle u (detect method (lastPrefix s.received) answers) staticSuffixes discovered s.daemon).visits
        (runUpdateCycle u (detect method (lastPrefix s.received) answers) staticSuffixes discovered
          s.daemon).state.store :=
      runUpdateCycle_made _
    simpa [SourceState.visits] using hi.append hcycle

/-- **Only correct global addresses are published**, in every run from every cache, and the calls of the cycles are the
calls of `set_record`: one after the other they lead from the updater's first world to its last. -/
theorem run_published {d : Daemon σ} {es : List SourceEvent}
    (hr : run (sourceStep method u) ⟨[], d, []⟩ es = some t) :
    (∀ c ∈ t.cycles, ∀ call ∈ calls c.result.visits, Published method c call.1 call.2) ∧
      Made u.setRecord d.store t.visits t.daemon.store :=
  run_inv (I := fun t => AllPublished method t ∧ Made u.setRecord d.store t.visits t.daemon.store)
    (fun _ _ _ hi h => ⟨sourceStep_published hi.1 h, sourceStep_made hi.2 h⟩)
    ⟨fun _ hc => absurd hc List.not_mem_nil, made_nil _ _⟩ hr

/-- A Router Advertisement with one Prefix Information Option, for `2001:db8:1:2::/64`. -/
def samplePacket : List UInt8 :=
  [134, 0, 0, 0, 64, 0, 0x07, 0x08, 0, 0, 0, 0, 0, 0, 0, 0] ++
  [3, 4, 64, 0xc0, 0, 0, 0x0e, 0x10, 0, 0, 0x07, 0x08, 0, 0, 0, 0] ++
  [0x20, 0x01, 0x0d, 0xb8, 0, 1, 0, 2, 0, 0, 0, 0, 0, 0, 0, 0]

/-- The packet arrives, and a cycle runs. -/
def sampleEvents : List SourceEvent :=
  [.packet samplePacket, .cycle ⟨.error "", .error ""⟩ [(⟨0, 0, 0, 0, 0, 0, 0, 1⟩, "nas.example.com")] none]

/-- An updater that always succeeds. The world is the list of the calls made, the last one first. -/
def ackUpdater : DnsUpdater (List (String × Ipv6Addr)) where
  setRecord domain addr w := (.ok (), (domain, addr) :: w)
  getRecord _ w := (.ok none, w)

/-- In the cycle after the packet the updater gets one call. -/
theorem run_published_nas : ∃ t, run (sourceStep (.ra "eth0") ackUpdater) ⟨[], ⟨fun _ => none, []⟩, []⟩ sampleEvents =
      some t ∧ t.daemon.store = [("nas.example.com", ⟨0x2001, 0xdb8, 1, 2, 0, 0, 0, 1⟩)] ∧
    ∀ c ∈ t.cycles, ∀ call ∈ calls c.result.visits, Published (.ra "eth0") c call.1 call.2 := by
  refine ⟨_, rfl, ?_⟩
  have h := run_published (show run (sourceStep (.ra "eth0") ackUpdater) ⟨[], ⟨fun _ => none, []⟩, []⟩ sampleEvents =
    some _ from rfl)
  exact ⟨(congrArg Prod.snd h.2).symm.trans (by decide), h.1⟩

end DdnsIpv6

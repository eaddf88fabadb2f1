import DdnsIpv6.Tasks.Poll
import DdnsIpv6.Lib.Changes
import DdnsIpv6.Lib.Observer

/-!
# What the listeners announce

The DNS poller sends a change when a lookup gives another prefix than the last one that succeeded, the RA listener sends
one for every packet with a prefix, and the netlink watcher one for every `NewAddress` or `DelAddress` message of an
IPv6 address. In every interleaving these are all the changes that are sent, each of them once (`announced_exactly`).
-/

namespace DdnsIpv6

open Lib Prefix

variable {cfg : Setup} {s t : TaskState}

/-! ## The steps -/

/-- The steps of the listener `l`, each with the state it leads to. -/
inductive ListenerCase (cfg : Setup) (s : TaskState) (l : Listener) : ListenerEvent → TaskState → Prop
  | pollBegin (referenceDomain : String) (hm : cfg.method = .dns referenceDomain) (hpc : l.pc = .idle) :
      ListenerCase cfg s l .pollBegin
        { s with listener := some { l with pc := .polling }, noted := { s.noted with pollFresh := true } }
  | pollChanged (referenceDomain : String) (lookup : Except String (List IpAddr)) (newPrefix : Ipv6Addr)
      (hm : cfg.method = .dns referenceDomain) (hpc : l.pc = .polling)
      (hr : Dns.resolvePrefixInner lookup referenceDomain = .ok newPrefix) (hne : l.last ≠ some newPrefix) :
      ListenerCase cfg s l (.pollEnd lookup)
        { s with listener := some ⟨.sending, some newPrefix⟩, noted := { s.noted with lastPoll := none } }
  | pollSame (referenceDomain : String) (lookup : Except String (List IpAddr)) (newPrefix : Ipv6Addr)
      (hm : cfg.method = .dns referenceDomain) (hpc : l.pc = .polling)
      (hr : Dns.resolvePrefixInner lookup referenceDomain = .ok newPrefix) (heq : l.last = some newPrefix) :
      ListenerCase cfg s l (.pollEnd lookup)
        { s with
          listener := some { l with pc := .idle }
          noted := { s.noted with lastPoll := if s.noted.pollFresh then some newPrefix else none } }
  | pollFailed (referenceDomain : String) (lookup : Except String (List IpAddr)) (e : Error)
      (hm : cfg.method = .dns referenceDomain) (hpc : l.pc = .polling)
      (hr : Dns.resolvePrefixInner lookup referenceDomain = .error e) : ListenerCase cfg s l (.pollEnd lookup)
        { s with listener := some { l with pc := .idle }, noted := { s.noted with lastPoll := none } }
  | packet (interface : String) (data : List UInt8) (hm : cfg.method = .ra interface) (hpc : l.pc = .idle) :
      ListenerCase cfg s l (.packet data)
        { s with listener := some ⟨if (Ra.receive data l.last).2 then .sending else .idle, (Ra.receive data l.last).1⟩ }
  | address (interface : String) (isIpv6 : Bool) (hm : cfg.method = .netlink interface) (hpc : l.pc = .idle) :
      ListenerCase cfg s l (.address isIpv6)
        { s with listener := some { l with pc := if isIpv6 then .sending else .idle } }
  | send (hpc : l.pc = .sending) : ListenerCase cfg s l .send
      { s with
        listener := some { l with pc := .idle }
        chan := s.chan.send
        noted := { s.noted with
          pending := s.noted.pending || s.noted.startupDetected
          lastPoll := if s.noted.pollFresh then l.last else none } }

/-- **The listener takes no other steps.** -/
theorem listenerStep_cases {e : ListenerEvent} (h : listenerStep cfg s e = some t) :
    ∃ l, s.listener = some l ∧ ListenerCase cfg s l e t := by
  unfold listenerStep at h
  split at h
  · cases h
  · rename_i l hl
    refine ⟨l, hl, ?_⟩
    split at h
    · rename_i referenceDomain hm hpc
      cases h
      exact .pollBegin referenceDomain hm hpc
    · rename_i lookup referenceDomain hm hpc
      split at h
      · rename_i newPrefix hr
        split at h
        · rename_i hne
          cases h
          exact .pollChanged referenceDomain lookup newPrefix hm hpc hr hne
        · rename_i heq
          cases h
          exact .pollSame referenceDomain lookup newPrefix hm hpc hr (not_not.1 heq)
      · rename_i e hr
        cases h
        exact .pollFailed referenceDomain lookup e hm hpc hr
    · rename_i data interface hm hpc
      cases h
      exact .packet interface data hm hpc
    · rename_i isIpv6 interface hm hpc
      cases h
      exact .address interface isIpv6 hm hpc
    · rename_i hpc
      cases h
      exact .send hpc
    · cases h

/-! ## Announcements -/

/-- What a listener heard of, and the changes that it sent. -/
structure Heard where
  /-- The prefixes of the lookups that succeeded, or of the packets that have one. -/
  prefixes : List Ipv6Addr
  /-- The `NewAddress` and `DelAddress` messages of IPv6 addresses. -/
  addresses : Nat
  sent : Nat
  deriving DecidableEq, Repr

def Heard.nothing : Heard := ⟨[], 0, 0⟩

/-- The notes on a step. -/
def Heard.note (cfg : Setup) (_ : TaskState) (e : TaskEvent) (_ : TaskState) (n : Heard) : Heard :=
  match e with
  | .listener (.pollEnd lookup) =>
    match cfg.method with
    | .dns referenceDomain =>
      match Dns.resolvePrefixInner lookup referenceDomain with
      | .ok newPrefix => { n with prefixes := n.prefixes ++ [newPrefix] }
      | .error _ => n
    | _ => n
  | .listener (.packet data) =>
    match Ra.packetPrefix data with
    | some p => { n with prefixes := n.prefixes ++ [p] }
    | none => n
  | .listener (.address isIpv6) => if isIpv6 then { n with addresses := n.addresses + 1 } else n
  | .listener .send => { n with sent := n.sent + 1 }
  | _ => n

/-- The number of changes that there are to announce. -/
def announcements (method : PrefixConfig) (n : Heard) : Nat :=
  match method with
  | .dns _ => (n.prefixes.destutter (· ≠ ·)).length
  | .netlink _ => n.addresses
  | .ra _ => n.prefixes.length

/-- The changes that are about to be sent. -/
def TaskState.unsent (s : TaskState) : Nat := if s.Sending then 1 else 0

/-- The listener has sent every change but the one it is about to send, and remembers the last prefix. -/
structure Announced (cfg : Setup) (s : TaskState) (n : Heard) : Prop where
  sent : n.sent + s.unsent = announcements cfg.method n
  last : ∀ l, s.listener = some l → l.last = n.prefixes.getLast?
  unspawned : s.pc = .start → s.listener = none ∧ n = .nothing

variable {n : Heard}

/-- The main task leaves the listener alone, once it has spawned it. -/
theorem mainStep_listener {m : MainEvent} (h : mainStep cfg s m = some t) : t.pc ≠ .start ∧
    (t.listener = s.listener ∨ s.pc = .start ∧ t.listener = some ⟨.idle, none⟩) := by
  cases mainStep_cases h with
  | spawnListener hpc => exact ⟨(fun hstart => nomatch hstart), Or.inr ⟨hpc, rfl⟩⟩
  | endCycle startup c hpc hc =>
    refine ⟨?_, Or.inl rfl⟩
    cases startup <;> exact fun hstart => nomatch hstart
  | _ => exact ⟨(fun hstart => nomatch hstart), Or.inl rfl⟩

/-- Whether the listener is about to send is a matter of its place. -/
theorem unsent_of_listener {l : Listener} (hl : s.listener = some l) : s.unsent = if l.pc = .sending then 1 else 0 := by
  simp only [TaskState.unsent, TaskState.Sending, hl, Option.map_some, Option.some.injEq]

theorem unsent_congr (hl : t.listener = s.listener) : t.unsent = s.unsent := if_congr (sending_congr hl) rfl rfl

theorem announcements_nothing (method : PrefixConfig) : announcements method .nothing = 0 := by
  cases method <;> rfl

/-- The invariant is about the listener and the notes. -/
theorem Announced.of_listener {l : Listener} (hl : t.listener = some l) (hpc : t.pc ≠ .start)
    (hsent : n.sent + (if l.pc = .sending then 1 else 0) = announcements cfg.method n)
    (hlast : l.last = n.prefixes.getLast?) : Announced cfg t n := by
  refine ⟨?_, fun l' hl' => ?_, fun hs => absurd hs hpc⟩
  · rw [unsent_of_listener hl]
    exact hsent
  · cases hl.symm.trans hl'
    exact hlast

theorem announced_init : Announced cfg .init .nothing :=
  ⟨(announcements_nothing cfg.method).symm, (fun _ hl => nomatch hl), fun _ => ⟨rfl, rfl⟩⟩

theorem announced_main {m : MainEvent} (hi : Announced cfg s n) (h : mainStep cfg s m = some t) :
    Announced cfg t n := by
  obtain ⟨hpc, hl | ⟨hstart, hl⟩⟩ := mainStep_listener h
  · exact ⟨unsent_congr hl ▸ hi.sent, fun l hs => hi.last l (hl.symm.trans hs), fun hs => absurd hs hpc⟩
  · obtain ⟨-, rfl⟩ := hi.unspawned hstart
    exact .of_listener hl hpc (announcements_nothing cfg.method).symm rfl

/-- A prefix that is heard of is announced, by the poller if it is not the one before. -/
theorem announced_listener {e : ListenerEvent} (hi : Announced cfg s n) (h : listenerStep cfg s e = some t) :
    Announced cfg t (n.note cfg s (.listener e) t) := by
  obtain ⟨hpc, -⟩ := listenerStep_frame h
  obtain ⟨l, hl, hcase⟩ := listenerStep_cases h
  have hsent := hi.sent
  have hlast := hi.last l hl
  rw [unsent_of_listener hl] at hsent
  have hstarted : t.pc ≠ .start := fun hstart => by
    have hnone := (hi.unspawned (hpc.symm.trans hstart)).1
    rw [hl] at hnone
    cases hnone
  cases hcase with
  | pollBegin referenceDomain hm hidle =>
    rw [hidle] at hsent
    exact .of_listener rfl hstarted hsent hlast
  | pollChanged referenceDomain lookup newPrefix hm hpolling hr hne =>
    have hchanged : ¬n.prefixes.getLast? = some newPrefix := hlast ▸ hne
    rw [hpolling, hm] at hsent
    have hn : n.note cfg s (.listener (.pollEnd lookup)) s = { n with prefixes := n.prefixes ++ [newPrefix] } := by
      simp only [Heard.note, hm, hr]
    change Announced cfg _ (n.note cfg s (.listener (.pollEnd lookup)) s)
    rw [hn]
    refine .of_listener rfl hstarted ?_ List.getLast?_concat.symm
    simp only [hm, announcements, destutter_concat, if_neg hchanged, List.length_append]
    exact congrArg (· + 1) hsent
  | pollSame referenceDomain lookup newPrefix hm hpolling hr heq =>
    have hsame : n.prefixes.getLast? = some newPrefix := hlast ▸ heq
    rw [hpolling, hm] at hsent
    have hn : n.note cfg s (.listener (.pollEnd lookup)) s = { n with prefixes := n.prefixes ++ [newPrefix] } := by
      simp only [Heard.note, hm, hr]
    change Announced cfg _ (n.note cfg s (.listener (.pollEnd lookup)) s)
    rw [hn]
    refine .of_listener rfl hstarted ?_ (heq.trans List.getLast?_concat.symm)
    simp only [hm, announcements, destutter_concat, if_pos hsame]
    exact hsent
  | pollFailed referenceDomain lookup e hm hpolling hr =>
    rw [hpolling] at hsent
    have hn : n.note cfg s (.listener (.pollEnd lookup)) s = n := by simp only [Heard.note, hm, hr]
    change Announced cfg _ (n.note cfg s (.listener (.pollEnd lookup)) s)
    rw [hn]
    exact .of_listener rfl hstarted hsent hlast
  | packet interface data hm hidle =>
    rw [hidle, hm] at hsent
    cases hp : Ra.packetPrefix data with
    | none =>
      have hn : n.note cfg s (.listener (.packet data)) s = n := by simp only [Heard.note, hp]
      have hreceive : Ra.receive data l.last = (l.last, false) := by simp only [Ra.receive, hp]
      change Announced cfg _ (n.note cfg s (.listener (.packet data)) s)
      rw [hn, hreceive]
      refine .of_listener rfl hstarted ?_ hlast
      rw [hm]
      exact hsent
    | some p =>
      have hn : n.note cfg s (.listener (.packet data)) s = { n with prefixes := n.prefixes ++ [p] } := by
        simp only [Heard.note, hp]
      have hreceive : Ra.receive data l.last = (some p, true) := by simp only [Ra.receive, hp]
      change Announced cfg _ (n.note cfg s (.listener (.packet data)) s)
      rw [hn, hreceive]
      refine .of_listener rfl hstarted ?_ List.getLast?_concat.symm
      simp only [hm, announcements, List.length_append]
      exact congrArg (· + 1) hsent
  | address interface isIpv6 hm hidle =>
    rw [hidle, hm] at hsent
    cases isIpv6 with
    | false =>
      refine .of_listener rfl hstarted ?_ hlast
      rw [hm]
      exact hsent
    | true =>
      refine .of_listener rfl hstarted ?_ hlast
      rw [hm]
      exact congrArg (· + 1) hsent
  | send hsending =>
    rw [hsending] at hsent
    exact .of_listener rfl hstarted hsent hlast

/-- **Every step keeps it.** -/
theorem announced_step {e : TaskEvent} (hi : Announced cfg s n) (h : taskStep cfg s e = some t) :
    Announced cfg t (n.note cfg s e t) := by
  obtain ⟨hlive, ⟨m, rfl, hm⟩ | ⟨l, rfl, hl⟩ | ⟨g, rfl, hg⟩⟩ := taskStep_cases h
  · exact announced_main hi hm
  · exact announced_listener hi hl
  · obtain ⟨-, -, -, hl, -, hpc⟩ := signalStep_frame hg
    have hstart : t.pc = .start → s.pc = .start := fun hs => by
      rcases hpc with hpc | hpc
      · exact hpc.symm.trans hs
      · cases hpc.symm.trans hs
    exact ⟨unsent_congr hl ▸ hi.sent, fun l hs => hi.last l (hl.symm.trans hs),
      fun hs => ⟨hl.trans (hi.unspawned (hstart hs)).1, (hi.unspawned (hstart hs)).2⟩⟩

/-- **All changes are announced, each of them once**, in every interleaving from process start: what was sent, and the
change that is about to be sent, are the changes of the polled prefix, the advertisements that have a prefix, or the
`NewAddress` and `DelAddress` messages of IPv6 addresses. -/
theorem announced_exactly (cfg : Setup) {es : List TaskEvent}
    (hr : run (observed (taskStep cfg) (Heard.note cfg)) (.init, .nothing) es = some (t, n)) :
    n.sent + (if t.Sending then 1 else 0) = announcements cfg.method n ∧
      ∀ l, t.listener = some l → l.last = n.prefixes.getLast? := by
  have hi : Announced cfg t n := by
    refine observed_inv (fun s n e t hi h => ?_) announced_init hr
    exact announced_step hi h
  exact ⟨hi.sent, hi.last⟩

/-- A lookup that gives `2001:db8:1:net::1`. -/
def samplePoll (net : UInt16) : List TaskEvent :=
  [.listener .pollBegin, .listener (.pollEnd (.ok [.v6 ⟨0x2001, 0xdb8, 1, net, 0, 0, 0, 1⟩]))]

/-- Four lookups, the second with the prefix of the first: two changes are sent, the third is on its way. -/
theorem announced_exactly_rotation : ∃ t n,
    run (observed (taskStep ⟨.dns "home.example.com", []⟩) (Heard.note ⟨.dns "home.example.com", []⟩)) (.init, .nothing)
      (.main .spawnListener :: samplePoll 1 ++ [.listener .send] ++ samplePoll 1 ++ samplePoll 2 ++ [.listener .send] ++
        samplePoll 1) = some (t, n) ∧
    (n.sent = 2 ∧ t.Sending) ∧
    n.sent + (if t.Sending then 1 else 0) = announcements (.dns "home.example.com") n ∧
      ∀ l, t.listener = some l → l.last = n.prefixes.getLast? :=
  ⟨_, _, rfl, ⟨rfl, rfl⟩, announced_exactly ⟨.dns "home.example.com", []⟩
    (show run _ _ (.main .spawnListener :: samplePoll 1 ++ [.listener .send] ++ samplePoll 1 ++ samplePoll 2 ++
      [.listener .send] ++ samplePoll 1) = _ from rfl)⟩

end DdnsIpv6

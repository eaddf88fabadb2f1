import DdnsIpv6.Tasks.Notify
import DdnsIpv6.Tasks.Served

/-!
# How many calls a domain costs

An observer counts for one domain how often its wanted address changes, beginning with the record that was read at
startup, and how its calls of `set_record` end. However many cycles there are and whatever their causes, no more calls
are acknowledged than there are changes, and exactly so many if no call fails (`calls_tally`).
-/

namespace DdnsIpv6

open Lib Lib.WriteThrough

variable {cfg : Setup} {s t : TaskState}

/-- What is counted for a domain. -/
structure Tally where
  /-- The address that a cycle wanted last, or that was read last at startup. -/
  wanted : Option Ipv6Addr
  changes : Nat
  acknowledged : Nat
  failed : Nat
  deriving DecidableEq, Repr

def Tally.none : Tally := ⟨.none, 0, 0, 0⟩

/-- A cycle comes to the domain, and wants it to have the address. -/
def Tally.want (n : Tally) (addr : Ipv6Addr) : Tally :=
  { n with wanted := some addr, changes := if n.wanted = some addr then n.changes else n.changes + 1 }

/-- A call of `set_record` ends. -/
def Tally.call (n : Tally) : Except Error Unit → Tally
  | .ok _ => { n with acknowledged := n.acknowledged + 1 }
  | .error _ => { n with failed := n.failed + 1 }

/-- The notes on a step. -/
def Tally.note (domain : String) (s : TaskState) (e : TaskEvent) (_ : TaskState) (n : Tally) : Tally :=
  match e, s.pc with
  | .main (.seedRecord (.ok (some addr))), .seeding ((_, d) :: _) =>
    if d = domain then { n with wanted := some addr } else n
  | .main (.host outcome), .cycle _ (.updating p ((suffix, d) :: _)) =>
    if d = domain then
      match s.nextCall with
      | some _ => (n.want (combine p suffix)).call outcome
      | .none => n.want (combine p suffix)
    else n
  | _, _ => n

/-- What is kept, for the cache entry `c` of the domain: while a change is not acknowledged there are fewer acknowledged
calls than changes, and without failures there is no such change. -/
structure Balanced (c : Option Ipv6Addr) (n : Tally) : Prop where
  le : n.acknowledged ≤ n.changes
  lt : c ≠ n.wanted → n.acknowledged < n.changes
  even : n.failed = 0 → c = n.wanted ∧ n.acknowledged = n.changes

variable {c : Option Ipv6Addr} {n : Tally} {addr : Ipv6Addr}

/-- A record is read at startup. -/
theorem Balanced.read (hn : Balanced c n) (addr : Ipv6Addr) : Balanced (some addr) { n with wanted := some addr } :=
  ⟨hn.le, fun hne => absurd rfl hne, fun hf => ⟨rfl, (hn.even hf).2⟩⟩

theorem Balanced.changes_want (hn : Balanced c n) (hc : c ≠ some addr) : n.acknowledged < (n.want addr).changes := by
  simp only [Tally.want]
  split
  · rename_i hw
    exact hn.lt (by rw [hw]; exact hc)
  · exact Nat.lt_succ_of_le hn.le

/-- A host that is skipped. -/
theorem Balanced.skip (hn : Balanced (some addr) n) : Balanced (some addr) (n.want addr) := by
  refine ⟨?_, fun hne => absurd rfl hne, fun hf => ⟨rfl, ?_⟩⟩
  · simp only [Tally.want]
    split
    · exact hn.le
    · exact Nat.le_succ_of_le hn.le
  · obtain ⟨hwanted, heven⟩ := hn.even hf
    simp only [Tally.want, if_pos hwanted.symm]
    exact heven

/-- A host whose call succeeds. -/
theorem Balanced.ok (hn : Balanced c n) (hc : c ≠ some addr) : Balanced (some addr) ((n.want addr).call (.ok ())) := by
  refine ⟨hn.changes_want hc, fun hne => absurd rfl hne, fun hf => ⟨rfl, ?_⟩⟩
  obtain ⟨hwanted, heven⟩ := hn.even hf
  have hw : n.wanted ≠ some addr := fun hw => hc (hwanted.trans hw)
  simp only [Tally.call, Tally.want, if_neg hw]
  exact congrArg (· + 1) heven

/-- A host whose call fails. -/
theorem Balanced.error (hn : Balanced c n) (hc : c ≠ some addr) (e : Error) :
    Balanced c ((n.want addr).call (.error e)) :=
  ⟨(hn.changes_want hc).le, fun _ => hn.changes_want hc, fun hf => nomatch hf⟩

/-- **Every step keeps the balance.** -/
theorem balanced_step {domain : String} {e : TaskEvent} (hn : Balanced (s.cache domain) n)
    (h : taskStep cfg s e = some t) : Balanced (t.cache domain) (n.note domain s e t) := by
  obtain ⟨-, ⟨m, rfl, hm⟩ | ⟨l, rfl, hl⟩ | ⟨g, rfl, hg⟩⟩ := taskStep_cases h
  · cases mainStep_cases hm with
    | seedRecord answer e todo hpc =>
      obtain ⟨suffix, d⟩ := e
      rcases answer with err | _ | addr
      · exact hn
      · exact hn
      · simp only [Tally.note, hpc, seedCache, answering]
        by_cases hd : d = domain
        · subst hd
          rw [if_pos rfl, Function.update_self]
          exact hn.read addr
        · rw [if_neg hd, Function.update_of_ne (Ne.symm hd)]
          exact hn
    | host outcome startup p suffix d todo hpc =>
      simp only [Tally.note, TaskState.nextCall, hpc, updateHost]
      by_cases hd : d = domain
      · subst hd
        by_cases hc : s.cache d = some (combine p suffix)
        · simp only [if_pos hc, if_true]
          rw [hc] at hn ⊢
          exact hn.skip
        · simp only [if_neg hc, if_true, answering]
          cases outcome with
          | ok u =>
            simp only [Function.update_self]
            exact hn.ok hc
          | error err => exact hn.error hc err
      · rw [if_neg hd]
        split
        · exact hn
        · cases outcome with
          | ok u =>
            simp only [answering, Function.update_of_ne (Ne.symm hd)]
            exact hn
          | error err => exact hn
    | spawnListener hpc | newReturns hpc | seedHosts discovered hpc | startupCycle hpc | callDetect startup hpc
    | detectReturns answers startup c hpc ok error | discovered hosts startup p hpc | endCycle startup c hpc hc
    | spawnSignalTasks hpc | subscribe hpc | changed r r' hpc hr hc | notified hpc hp | cancelled hpc hc => exact hn
  · obtain ⟨-, -, hcache, -⟩ := listenerStep_frame hl
    rw [hcache]
    exact hn
  · obtain ⟨hcache, -⟩ := signalStep_frame hg
    rw [hcache]
    exact hn

/-- **A domain costs a call for each change of its address**, in every interleaving from process start: at most so many
calls are acknowledged, and exactly so many if none fails; then the cache has the wanted address. -/
theorem calls_tally (cfg : Setup) (domain : String) {es : List TaskEvent}
    (hr : run (observed (taskStep cfg) (Tally.note domain)) (.init, .none) es = some (t, n)) :
    n.acknowledged ≤ n.changes ∧ (n.failed = 0 → t.cache domain = n.wanted ∧ n.acknowledged = n.changes) := by
  have hinit : Balanced (TaskState.init.cache domain) .none :=
    ⟨Nat.le_refl 0, fun hne => absurd rfl hne, fun _ => ⟨rfl, rfl⟩⟩
  have hn : Balanced (t.cache domain) n := by
    refine observed_inv (I := fun s n => Balanced (s.cache domain) n) (fun s n e t hi h => ?_) hinit hr
    exact balanced_step hi h
  exact ⟨hn.le, hn.even⟩

/-- A cycle that finds the prefix `2001:db8:1:net::`. -/
def netCycle (net : UInt16) : List TaskEvent :=
  addressEvents ++ [.main .changed, .main .callDetect,
    .main (.detectReturns
      ⟨.error "", .ok (.ok [⟨true, some (.v6 ⟨0x2001, 0xdb8, 1, net, 0, 0, 0, 7⟩), false, true, none⟩])⟩),
    .main (.discovered none), .main (.host (.ok ())), .main .endCycle]

/-- Four cycles, the second with the prefix of the first. -/
theorem calls_tally_nas : ∃ t n,
    run (observed (taskStep netlinkSetup) (Tally.note "nas.example.com")) (.init, .none)
      (startupEvents ++ enterEvents ++ netCycle 1 ++ netCycle 1 ++ netCycle 2 ++ netCycle 1) = some (t, n) ∧
    n.changes = 3 ∧ n.acknowledged ≤ n.changes ∧
      (n.failed = 0 → t.cache "nas.example.com" = n.wanted ∧ n.acknowledged = n.changes) :=
  ⟨_, _, rfl, rfl, calls_tally netlinkSetup "nas.example.com" (show run _ _ (startupEvents ++ enterEvents ++
    netCycle 1 ++ netCycle 1 ++ netCycle 2 ++ netCycle 1) = _ from rfl)⟩

end DdnsIpv6

import DdnsIpv6.Cycle.SkipSafety
import DdnsIpv6.Lib.Register

/-!
# Updaters that may leave a write half done

A `LossyUpdater` writes the records of a server that nobody else writes. A call that fails leaves the record of its
domain as it was, or in a state that `left` allows: with the new address, as a `RemoteUpdater` may, or deleted, where an
update is more than one message. The cache stays coherent with the server as long as no call that fails has changed the
record of a domain with a cache entry.
-/

namespace DdnsIpv6

open Lib Lib.WriteThrough

variable {σ : Type*}

/-- An updater and the records of its server. -/
structure LossyUpdater (σ : Type*) extends DnsUpdater σ where
  /-- The AAAA record of each domain. -/
  records : σ → Cache String Ipv6Addr
  /-- What a call that fails may leave of the record that it is to set, if not the old one. -/
  left : Ipv6Addr → List (Option Ipv6Addr)
  setRecord_ok : ∀ domain addr w, (setRecord domain addr w).1 = .ok () →
    records (setRecord domain addr w).2 = Function.update (records w) domain (some addr)
  setRecord_error : ∀ domain addr w e, (setRecord domain addr w).1 = .error e →
    ∃ r ∈ records w domain :: left addr, records (setRecord domain addr w).2 = Function.update (records w) domain r
  /-- A query changes no record. -/
  getRecord_frame : ∀ domain w, records (getRecord domain w).2 = records w
  /-- An answered query tells the record of the domain. -/
  getRecord_truth : ∀ domain w r, (getRecord domain w).1 = .ok r → r = records w domain

/-- The server as a store under the cache. -/
def LossyUpdater.store (u : LossyUpdater σ) : LossyStore String Ipv6Addr σ Error where
  write := u.setRecord
  view := u.records
  left := u.left
  ok := u.setRecord_ok
  error := u.setRecord_error

/-- A call of a remote updater that fails is applied or not. -/
def RemoteUpdater.lossy (u : RemoteUpdater σ) : LossyUpdater σ where
  toDnsUpdater := u.toDnsUpdater
  records := u.records
  left addr := [some addr]
  setRecord_ok := u.store.lossy.ok
  setRecord_error := u.store.lossy.error
  getRecord_frame := u.getRecord_frame
  getRecord_truth := u.getRecord_truth

/-- Every cache entry is the record of the server. -/
def LossyUpdater.Coherent (u : LossyUpdater σ) (s : Daemon σ) : Prop := CoherentView u.records s

section Coherence

variable {u : LossyUpdater σ} {s : Daemon σ}

theorem LossyUpdater.coherent_atStart (u : LossyUpdater σ) (w : σ) : u.Coherent (atStart w) := fun _ _ h => by cases h

theorem LossyUpdater.coherent_seedCache {es : List (Ipv6Addr × String)} (h : u.Coherent s) :
    u.Coherent (seedCache u.toDnsUpdater es s) :=
  coherentView_seedCache u.getRecord_frame u.getRecord_truth h

/-- A host keeps coherence, unless its call fails, has changed the record, and the domain has a cache entry. -/
theorem LossyUpdater.coherent_put {domain : String} {addr : Ipv6Addr} (h : u.Coherent s)
    (hn : ¬u.store.Disturbs ⟨s, domain, addr, (put u.setRecord domain addr s).1⟩) :
    u.Coherent (put u.setRecord domain addr s).2 :=
  LossyStore.coherent_put (S := u.store) h hn

end Coherence

/-! ## Updaters that are such updaters for some domains -/

/-- For the domains `D`, the updater `v` is the updater `u`. -/
structure ServesAs {σ : Type} (u : LossyUpdater σ) (v : DnsUpdater σ) (D : String → Prop) : Prop where
  setRecord : ∀ domain, D domain → ∀ addr w, v.setRecord domain addr w = u.setRecord domain addr w
  getRecord : ∀ domain, D domain → ∀ w, v.getRecord domain w = u.getRecord domain w

/-- An updater as a client of its server. -/
def DnsUpdater.client {σ : Type} (u : DnsUpdater σ) : Client String Ipv6Addr σ Error := ⟨u.setRecord, u.getRecord⟩

/-- For these domains the updater is honest about the records. -/
theorem ServesAs.honest {σ : Type} {u : LossyUpdater σ} {v : DnsUpdater σ} {D : String → Prop} (hs : ServesAs u v D) :
    HonestClient u.records u.left v.client D where
  write_ok domain hd addr w h := by
    simp only [DnsUpdater.client, hs.setRecord domain hd addr w] at h ⊢
    exact u.setRecord_ok domain addr w h
  write_error domain hd addr w e h := by
    simp only [DnsUpdater.client, hs.setRecord domain hd addr w] at h ⊢
    exact u.setRecord_error domain addr w e h
  read_frame domain hd w := by
    simp only [DnsUpdater.client, hs.getRecord domain hd w]
    exact u.getRecord_frame domain w
  read_truth domain hd w r h := by
    simp only [DnsUpdater.client, hs.getRecord domain hd w] at h
    exact u.getRecord_truth domain w r h

end DdnsIpv6

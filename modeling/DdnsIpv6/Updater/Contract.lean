import DdnsIpv6.Updater.SetRecord
import DdnsIpv6.Updater.Rfc2136

/-!
# The contract of the two updaters

The contract of `trait DnsUpdater`: when `set_record` succeeds, the AAAA records of the domain hold the address and
no other (`HonoursContract`). `CloudflareUpdater` keeps it exactly when every record after the first that it is listed
already holds the address, since it changes the first record only (`cloudflare_honours_iff`); `Rfc2136Updater` keeps it
unless the first address is already right and another is not, since a success has replaced the whole RRset or changed
nothing (`rfc2136_honours_iff`). The client of the name server replaces an RRset by two messages, of which the second
may fail after the first, so an error can leave no record at all (`setRecord_cases`).
-/

namespace DdnsIpv6

open Lib Lib.Url CloudflareUpdater

/-- After a success the domain has the address and no other. -/
def HonoursContract {σ : Type*} (u : DnsUpdater σ) (addresses : σ → String → List Ipv6Addr) (domain : String)
    (addr : Ipv6Addr) (w : σ) : Prop :=
  (u.setRecord domain addr w).1 = .ok () → ∀ a, a ∈ addresses (u.setRecord domain addr w).2 domain ↔ a = addr

variable {api : ZoneApi} {token domain : String} {addr : Ipv6Addr} {z : Zone}

/-! ## Cloudflare -/

/-- The AAAA records of a domain. -/
def ownRecords (domain : String) (rs : List CfDnsRecord) : List CfDnsRecord :=
  rs.filter fun r => r.type = "AAAA" ∧ r.name = domain

/-- The addresses of a domain, in the order of its records. -/
def addressesOf (domain : String) (rs : List CfDnsRecord) : List Ipv6Addr :=
  (ownRecords domain rs).filterMap fun r => Ipv6Addr.fromStr r.content

def Zone.addresses (z : Zone) (domain : String) : List Ipv6Addr := addressesOf domain z.records

theorem queried_eq_ownRecords (h : QueriesOwn domain) (z : Zone) : z.queried domain = ownRecords domain z.records := by
  refine List.filter_congr fun r _ => decide_eq_decide.2 (and_congr_right fun _ => ?_)
  rw [h, utf8_inj, String.toList_inj]

/-- A patch changes no name and no type. -/
theorem ownRecords_patched (id content : String) (rs : List CfDnsRecord) :
    ownRecords domain (patched id content rs) = patched id content (ownRecords domain rs) := by
  rw [ownRecords, patched, List.filter_map]
  refine congrArg _ (List.filter_congr fun r _ => ?_)
  rw [Function.comp_apply]
  split <;> rfl

theorem patched_of_forall_ne {id content : String} {rs : List CfDnsRecord} (h : ∀ r ∈ rs, r.id ≠ id) :
    patched id content rs = rs := by
  rw [patched]
  conv_rhs => rw [← List.map_id rs]
  refine List.map_congr_left fun r hr => ?_
  rw [if_neg (h r hr)]
  rfl

/-- The first record of a domain and its address. -/
theorem addresses_cons {r : CfDnsRecord} {rs : List CfDnsRecord} (h : ownRecords domain z.records = r :: rs) :
    ∃ a, Ipv6Addr.fromStr r.content = some a ∧
      z.addresses domain = a :: rs.filterMap fun r => Ipv6Addr.fromStr r.content := by
  have hr : r ∈ ownRecords domain z.records := by
    rw [h]
    exact List.mem_cons_self
  obtain ⟨hmem, hown⟩ := List.mem_filter.1 hr
  obtain ⟨a, ha⟩ := Option.isSome_iff_exists.1 (z.valid r hmem (of_decide_eq_true hown).1)
  refine ⟨a, ha, ?_⟩
  rw [Zone.addresses, addressesOf, h, List.filterMap_cons, ha]

/-- The records of a domain after the first one was patched. -/
theorem ownRecords_patched_first {r : CfDnsRecord} {rs : List CfDnsRecord} {content : String}
    (h : ownRecords domain z.records = r :: rs) :
    ownRecords domain (patched r.id content z.records) = r.withContent content :: rs := by
  have hnodup : ((r :: rs).map (·.id)).Nodup := by
    rw [← h]
    exact z.distinct.sublist (List.filter_sublist.map _)
  rw [List.map_cons, List.nodup_cons] at hnodup
  rw [ownRecords_patched, h, patched, List.map_cons, if_pos rfl]
  refine congrArg _ (patched_of_forall_ne fun s hs hid => hnodup.1 ?_)
  rw [← hid]
  exact List.mem_map_of_mem hs

/-- The addresses after a success: the first is replaced, or the new address is added to none. -/
theorem addresses_after {result : List CfDnsRecord} (hq : QueriesOwn domain)
    (h : SetOutcome z domain addr.toString (.ok ()) result) :
    (∃ a as, z.addresses domain = a :: as ∧ addressesOf domain result = addr :: as) ∨
      (z.addresses domain = [] ∧ ∀ a, a ∈ addressesOf domain result ↔ a = addr) := by
  have hown := queried_eq_ownRecords hq z
  cases h with
  | correct r rs hlist hc =>
    obtain ⟨a, ha, haddresses⟩ := addresses_cons (hown.symm.trans hlist)
    rw [hc, fromStr_toString, Option.some.injEq] at ha
    exact Or.inl ⟨a, _, haddresses, by rw [ha]; exact haddresses⟩
  | updated r rs hlist hc =>
    obtain ⟨a, -, haddresses⟩ := addresses_cons (hown.symm.trans hlist)
    refine Or.inl ⟨a, _, haddresses, ?_⟩
    rw [addressesOf, ownRecords_patched_first (hown.symm.trans hlist), List.filterMap_cons]
    simp only [CfDnsRecord.withContent, fromStr_toString]
  | created hlist new hnew _ hok =>
    have hnone : ownRecords domain z.records = [] := hown.symm.trans hlist
    have hall : ownRecords domain new = new :=
      List.filter_eq_self.2 fun r hr => decide_eq_true ⟨(hnew r hr).type, (hnew r hr).name⟩
    refine Or.inr ⟨by rw [Zone.addresses, addressesOf, hnone]; rfl, fun a => ?_⟩
    rw [addressesOf, ownRecords, List.filter_append]
    rw [← ownRecords, ← ownRecords, hnone, hall, List.nil_append, List.mem_filterMap]
    constructor
    · rintro ⟨r, hr, ha⟩
      rw [(hnew r hr).content, fromStr_toString] at ha
      exact (Option.some.inj ha).symm
    · rintro rfl
      obtain ⟨r, hr⟩ := List.exists_mem_of_ne_nil new (hok rfl)
      exact ⟨r, hr, by rw [(hnew r hr).content, fromStr_toString]⟩

/-- A success leaves the address and no other exactly when the records after the first hold it already. -/
theorem success_iff {result : List CfDnsRecord} (hq : QueriesOwn domain)
    (h : SetOutcome z domain addr.toString (.ok ()) result) :
    (∀ a, a ∈ addressesOf domain result ↔ a = addr) ↔ ∀ a ∈ (z.addresses domain).tail, a = addr := by
  rcases addresses_after hq h with ⟨b, bs, hb, hresult⟩ | ⟨hnil, hresult⟩
  · rw [hb, hresult, List.tail_cons]
    constructor
    · intro hall a ha
      exact (hall a).1 (List.mem_cons_of_mem _ ha)
    · intro hall a
      rw [List.mem_cons]
      exact ⟨fun ha => ha.elim id (hall a), Or.inl⟩
  · rw [hnil]
    exact iff_of_true hresult fun a ha => absurd ha List.not_mem_nil

/-- The contract of `CloudflareUpdater`, about the addresses of its zone. -/
def CloudflareHonours (api : ZoneApi) (token domain : String) (addr : Ipv6Addr) (w : Remote api.service) : Prop :=
  HonoursContract ((api.updater token).toDnsUpdater api.http) (fun w => w.state.addresses) domain addr w

theorem cloudflareHonours_iff {w : Remote api.service} : CloudflareHonours api token domain addr w ↔
    (((api.updater token).setRecord api.http domain addr w).1 = .ok () →
      ∀ a, a ∈ addressesOf domain ((api.updater token).setRecord api.http domain addr w).2.state.records ↔
        a = addr) := by
  simp only [CloudflareHonours, HonoursContract, toDnsUpdater, Zone.addresses]

/-- **`CloudflareUpdater` honours the contract** exactly when all records but the first hold the address already. -/
theorem cloudflare_honours_iff (api : ZoneApi) (token : String) (hq : QueriesOwn domain) :
    (∀ outcomes, CloudflareHonours api token domain addr ⟨z, outcomes⟩) ↔
      ∀ a ∈ (z.addresses domain).tail, a = addr := by
  constructor
  · intro h
    have hok := setRecord_good api token domain addr z
    have hout := setRecord_outcome api token domain addr ⟨z, []⟩
    rw [hok] at hout
    exact (success_iff hq hout).1 (cloudflareHonours_iff.1 (h []) hok)
  · intro h outcomes
    rw [cloudflareHonours_iff]
    intro hok
    have hout := setRecord_outcome api token domain addr ⟨z, outcomes⟩
    rw [hok] at hout
    exact (success_iff hq hout).2 h

/-! ## RFC 2136 -/

/-- The AAAA records of each name, in the order in which a name server lists them. -/
abbrev NameServer := String → List Ipv6Addr

/-- A message to a name server: a query, and the two updates that replace an RRset. -/
inductive DnsMessage where
  | query (name : String)
  | delete (name : String)
  | add (name : String) (records : List DnsRecord)

/-- A query is answered with the AAAA records of the name. The first update deletes them, and the second adds those that
are not there. -/
def NameServer.service : Service NameServer DnsMessage (Except String (List DnsRecord)) where
  serve
    | .query name, s => (.ok ((s name).map .aaaa), s)
    | .delete name, s => (.ok [], Function.update s name [])
    | .add name records, s =>
      (.ok [], Function.update s name (s name ++ (records.filterMap DnsRecord.asAaaa).filter (· ∉ s name)))
  ok := fun _ answer => answer.isOk = true
  same := fun _ a b => b = a
  same_refl := fun _ _ => rfl

/-- A name server, with what happens to the messages to come. -/
abbrev RemoteNameServer := Remote NameServer.service

/-- The client: a query is one message, and an RRset is replaced by two, the second being sent only if the first one
succeeds. -/
def nameServerClient : DnsUpdateClient RemoteNameServer where
  listRrset name _ _ w := w.send (.query name)
  setRrset name _ _ records _ w :=
    match w.send (.delete name) with
    | (.error e, w) => (.error e, w)
    | (.ok _, w) =>
      let (answer, w) := w.send (.add name records)
      (answer.map fun _ => (), w)

def nameServerUpdater : Rfc2136Updater RemoteNameServer := ⟨nameServerClient⟩

variable {s : NameServer}

theorem findSome_asAaaa (as : List Ipv6Addr) : (as.map DnsRecord.aaaa).findSome? DnsRecord.asAaaa = as.head? := by
  cases as <;> rfl

/-- A read leaves the records alone, and what it finds is the first address. -/
theorem getRecord_spec (domain : String) (w : RemoteNameServer) :
    (nameServerUpdater.getRecord domain w).2.state = w.state ∧
    ∀ current, (nameServerUpdater.getRecord domain w).1 = .ok current → (w.state domain).head? = current := by
  have hinv : (w.send (.query domain)).2.state = w.state := Remote.send_inv (I := (· = w.state)) (fun _ h => h) rfl
  have hok := Remote.send_ok w (.query domain)
  rcases hs : w.send (.query domain) with ⟨answer, w'⟩
  rw [hs] at hinv hok
  cases answer with
  | error e =>
    simp only [Rfc2136Updater.getRecord, nameServerUpdater, nameServerClient, hs]
    exact ⟨hinv, fun _ h => nomatch h⟩
  | ok records =>
    simp only [Rfc2136Updater.getRecord, nameServerUpdater, nameServerClient, hs]
    refine ⟨hinv, fun current h => ?_⟩
    obtain ⟨hanswer, -⟩ := hok rfl
    cases hanswer
    rw [findSome_asAaaa] at h
    exact Except.ok.inj h

/-- What the two messages can do: a success has replaced the records, and an error may have left them alone, deleted
them or replaced them. -/
theorem replace_cases (domain : String) (addr : Ipv6Addr) (w : RemoteNameServer) :
    ((nameServerUpdater.replace domain addr w).1 = .ok () ∧
      (nameServerUpdater.replace domain addr w).2.state = Function.update w.state domain [addr]) ∨
    (∃ e, (nameServerUpdater.replace domain addr w).1 = .error e) ∧
      ((nameServerUpdater.replace domain addr w).2.state = w.state ∨
        ∃ as ∈ [[], [addr]],
          (nameServerUpdater.replace domain addr w).2.state = Function.update w.state domain as) := by
  have hok := Remote.send_ok w (.delete domain)
  have hdelete := Remote.send_state w (.delete domain)
  rcases hd : w.send (.delete domain) with ⟨_ | _, w'⟩ <;> rw [hd] at hok hdelete
  · -- the deletion failed, applied or not
    simp only [Rfc2136Updater.replace, nameServerUpdater, nameServerClient, hd]
    exact Or.inr ⟨⟨_, rfl⟩, hdelete.imp id fun hstate => ⟨[], List.mem_cons_self, hstate⟩⟩
  · have hstate : w'.state = Function.update w.state domain [] := (hok rfl).2
    have hok' := Remote.send_ok w' (.add domain [.aaaa addr])
    have hadd := Remote.send_state w' (.add domain [.aaaa addr])
    have hadded : (NameServer.service.serve (.add domain [.aaaa addr]) w'.state).2 =
        Function.update w.state domain [addr] := by
      rw [hstate]
      simp [NameServer.service, DnsRecord.asAaaa]
    rw [hadded] at hok' hadd
    rw [hstate] at hadd
    rcases ha : w'.send (.add domain [.aaaa addr]) with ⟨_ | _, w''⟩ <;> rw [ha] at hok' hadd <;>
      simp only [Rfc2136Updater.replace, nameServerUpdater, nameServerClient, hd, ha]
    · -- nothing is left unless the addition was applied
      refine Or.inr ⟨⟨_, rfl⟩, Or.inr ?_⟩
      rcases hadd with hstate | hstate
      · exact ⟨[], List.mem_cons_self, hstate⟩
      · exact ⟨[addr], List.mem_cons_of_mem _ List.mem_cons_self, hstate⟩
    · exact Or.inl ⟨rfl, (hok' rfl).2⟩

/-- **What `set_record` can do**: a success found the first address right or has replaced the records, and an error may
have left them alone, deleted them or replaced them. -/
theorem setRecord_cases (domain : String) (addr : Ipv6Addr) (w : RemoteNameServer) :
    ((nameServerUpdater.setRecord domain addr w).1 = .ok () ∧
      ((w.state domain).head? = some addr ∧ (nameServerUpdater.setRecord domain addr w).2.state = w.state ∨
        (nameServerUpdater.setRecord domain addr w).2.state = Function.update w.state domain [addr])) ∨
    (∃ e, (nameServerUpdater.setRecord domain addr w).1 = .error e) ∧
      ((nameServerUpdater.setRecord domain addr w).2.state = w.state ∨
        ∃ as ∈ [[], [addr]],
          (nameServerUpdater.setRecord domain addr w).2.state = Function.update w.state domain as) := by
  obtain ⟨hstate, hread⟩ := getRecord_spec domain w
  rcases hg : nameServerUpdater.getRecord domain w with ⟨answer, w'⟩
  rw [hg] at hstate hread
  replace hstate : w'.state = w.state := hstate
  have hreplace := replace_cases domain addr w'
  rw [hstate] at hreplace
  rcases answer with e | _ | current <;> simp only [Rfc2136Updater.setRecord, hg]
  · exact hreplace.imp (And.imp_right Or.inr) id
  · exact hreplace.imp (And.imp_right Or.inr) id
  · split
    · rename_i he
      exact Or.inl ⟨rfl, Or.inl ⟨he ▸ hread _ rfl, hstate⟩⟩
    · exact hreplace.imp (And.imp_right Or.inr) id

/-- What `set_record` does when it succeeds: nothing, as the first address is right, or it replaces the records. -/
theorem rfc2136_outcome {w : RemoteNameServer} (h : (nameServerUpdater.setRecord domain addr w).1 = .ok ()) :
    ((w.state domain).head? = some addr ∧ (nameServerUpdater.setRecord domain addr w).2.state = w.state) ∨
      (nameServerUpdater.setRecord domain addr w).2.state = Function.update w.state domain [addr] := by
  rcases setRecord_cases domain addr w with ⟨-, hstate⟩ | ⟨⟨e, he⟩, -⟩
  · exact hstate
  · cases h.symm.trans he

/-- The contract of `Rfc2136Updater`, about the addresses of its name server. -/
def Rfc2136Honours (domain : String) (addr : Ipv6Addr) (w : RemoteNameServer) : Prop :=
  HonoursContract nameServerUpdater.toDnsUpdater (fun w => w.state) domain addr w

theorem rfc2136Honours_iff {w : RemoteNameServer} : Rfc2136Honours domain addr w ↔
    ((nameServerUpdater.setRecord domain addr w).1 = .ok () →
      ∀ a, a ∈ (nameServerUpdater.setRecord domain addr w).2.state domain ↔ a = addr) := by
  simp only [Rfc2136Honours, HonoursContract, Rfc2136Updater.toDnsUpdater]

/-- **`Rfc2136Updater` honours the contract** unless the first address is right and another one is not. -/
theorem rfc2136_honours_iff : (∀ outcomes, Rfc2136Honours domain addr ⟨s, outcomes⟩) ↔
    ((s domain).head? = some addr → ∀ a ∈ s domain, a = addr) := by
  constructor
  · intro h hfirst a ha
    have hget : nameServerUpdater.getRecord domain ⟨s, []⟩ = (.ok (some addr), ⟨s, []⟩) := by
      simp only [Rfc2136Updater.getRecord, nameServerUpdater, nameServerClient, Remote.send_good, NameServer.service,
        findSome_asAaaa, hfirst]
    have hset : nameServerUpdater.setRecord domain addr ⟨s, []⟩ = (.ok (), ⟨s, []⟩) := by
      simp only [Rfc2136Updater.setRecord, hget, if_true]
    have hall := rfc2136Honours_iff.1 (h [])
    rw [hset] at hall
    exact (hall rfl a).1 ha
  · intro h outcomes
    rw [rfc2136Honours_iff]
    intro hok a
    rcases rfc2136_outcome hok with ⟨hfirst, hstate⟩ | hstate
    · rw [hstate]
      refine ⟨h hfirst a, ?_⟩
      rintro rfl
      exact List.mem_of_mem_head? hfirst
    · rw [hstate, Function.update_self, List.mem_singleton]

/-! ## Both -/

/-- Both updaters honour the contract, whatever happens to their calls, and so two successes leave the same
addresses. -/
structure OneContract (api : ZoneApi) (token : String) (z : Zone) (s : NameServer) (domain : String) (addr : Ipv6Addr) :
    Prop where
  cloudflare : ∀ outcomes, CloudflareHonours api token domain addr ⟨z, outcomes⟩
  rfc2136 : ∀ outcomes, Rfc2136Honours domain addr ⟨s, outcomes⟩
  same : ∀ outcomes outcomes',
    ((api.updater token).setRecord api.http domain addr ⟨z, outcomes⟩).1 = .ok () →
    (nameServerUpdater.setRecord domain addr ⟨s, outcomes'⟩).1 = .ok () →
    ∀ a, a ∈ addressesOf domain ((api.updater token).setRecord api.http domain addr ⟨z, outcomes⟩).2.state.records ↔
      a ∈ (nameServerUpdater.setRecord domain addr ⟨s, outcomes'⟩).2.state domain

/-- **The updaters honour one contract** exactly when every record after the first that Cloudflare lists holds the
address already, and the name server does not list the address first and another one later. -/
theorem oneContract_iff (hq : QueriesOwn domain) : OneContract api token z s domain addr ↔
    (∀ a ∈ (z.addresses domain).tail, a = addr) ∧ ((s domain).head? = some addr → ∀ a ∈ s domain, a = addr) := by
  rw [← cloudflare_honours_iff api token hq, ← rfc2136_honours_iff]
  constructor
  · intro h
    exact ⟨h.cloudflare, h.rfc2136⟩
  · rintro ⟨hcf, hrfc⟩
    refine ⟨hcf, hrfc, fun outcomes outcomes' hok hok' a => ?_⟩
    rw [cloudflareHonours_iff.1 (hcf outcomes) hok a, rfc2136Honours_iff.1 (hrfc outcomes') hok' a]

/-- A name server with the same records. -/
def sampleServer : NameServer := fun _ => sampleZone.addresses "nas.example.com"

theorem oneContract_nas :
    OneContract sampleApi "token" sampleZone sampleServer "nas.example.com" ⟨0x2001, 0xdb8, 1, 0, 0, 0, 0, 1⟩ :=
  (oneContract_iff (by decide)).2 ⟨by decide, by decide⟩

/-- The second record stays. -/
theorem not_oneContract :
    ¬ OneContract sampleApi "token" sampleZone sampleServer "nas.example.com" ⟨0x2001, 0xdb8, 2, 0, 0, 0, 0, 1⟩ := by
  intro h
  have htail := (cloudflare_honours_iff sampleApi "token" (by decide)).1 h.cloudflare
  exact absurd htail (by decide)

end DdnsIpv6

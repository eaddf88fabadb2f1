import DdnsIpv6.Updater.Contract
import DdnsIpv6.Updater.Lossy

/-!
# The updaters and their servers

The cache is about one record of each domain: the first AAAA record that the server lists. Seen so, both updaters are
`LossyUpdater`s over their servers, whatever happens to their messages. `CloudflareUpdater` is even a remote updater,
for the domains that its API reads in the list request (`cloudflareRemote`): a call that fails has set the record or
has done nothing. With `Rfc2136Updater` it may also have deleted the record (`nameServerLossy`).
-/

namespace DdnsIpv6

open Lib Lib.WriteThrough Lib.Url CloudflareUpdater

/-! ## `Rfc2136Updater` and its name server -/

section NameServer

variable {domain : String} {addr : Ipv6Addr}

/-- The first AAAA record of each name. -/
def NameServer.firstRecords (s : NameServer) : Cache String Ipv6Addr := fun domain => (s domain).head?

theorem firstRecords_update (s : NameServer) (domain : String) (as : List Ipv6Addr) :
    NameServer.firstRecords (Function.update s domain as) = Function.update s.firstRecords domain as.head? := by
  funext d
  by_cases hd : d = domain
  · subst hd
    simp only [NameServer.firstRecords, Function.update_self]
  · simp only [NameServer.firstRecords, Function.update_of_ne hd]

/-- The first record is the wanted one: replacing it would change nothing. -/
theorem firstRecords_of_head {s : NameServer} (h : (s domain).head? = some addr) :
    s.firstRecords = Function.update s.firstRecords domain (some addr) :=
  (Function.update_eq_self_iff.2 h.symm).symm

/-- `Rfc2136Updater`, whatever happens to its messages: a call that fails may have deleted the record, or set it. -/
def nameServerLossy : LossyUpdater RemoteNameServer where
  toDnsUpdater := nameServerUpdater.toDnsUpdater
  records w := w.state.firstRecords
  left addr := [none, some addr]
  setRecord_ok domain addr w h := by
    rcases rfc2136_outcome h with ⟨hfirst, hstate⟩ | hstate <;> simp only [Rfc2136Updater.toDnsUpdater, hstate]
    · exact firstRecords_of_head hfirst
    · exact firstRecords_update _ _ _
  setRecord_error domain addr w e h := by
    simp only [Rfc2136Updater.toDnsUpdater] at h ⊢
    rcases setRecord_cases domain addr w with ⟨hok, -⟩ | ⟨-, hstate | ⟨as, has, hstate⟩⟩
    · cases h.symm.trans hok
    · refine ⟨_, List.mem_cons_self, ?_⟩
      rw [hstate, Function.update_eq_self]
    · refine ⟨as.head?, List.mem_cons_of_mem _ ?_, ?_⟩
      · rcases List.mem_pair.1 has with rfl | rfl
        · exact List.mem_cons_self
        · exact List.mem_cons_of_mem _ List.mem_cons_self
      · rw [hstate, firstRecords_update]
  getRecord_frame domain w := congrArg NameServer.firstRecords (getRecord_spec domain w).1
  getRecord_truth domain w r h := ((getRecord_spec domain w).2 r h).symm

theorem rfc2136_servesAs : ServesAs nameServerLossy nameServerUpdater.toDnsUpdater fun _ => True :=
  ⟨fun _ _ _ _ => rfl, fun _ _ _ => rfl⟩

end NameServer

/-! ## `CloudflareUpdater` and its zone -/

section Cloudflare

variable {api : ZoneApi} {token domain : String} {addr : Ipv6Addr} {z : Zone} {w : Remote api.service}

/-- The first AAAA record of each domain. -/
def firstAddress (rs : List CfDnsRecord) : Cache String Ipv6Addr := fun domain => (addressesOf domain rs).head?

/-- The records of other domains decide the first record of another domain. -/
theorem firstAddress_of_ownRecords {rs rs' : List CfDnsRecord}
    (h : ∀ d, d ≠ domain → ownRecords d rs' = ownRecords d rs) (hd : (addressesOf domain rs').head? = some addr) :
    firstAddress rs' = Function.update (firstAddress rs) domain (some addr) := by
  funext d
  by_cases hne : d = domain
  · subst hne
    rw [Function.update_self]
    exact hd
  · rw [Function.update_of_ne hne, firstAddress, addressesOf, h d hne]
    rfl

/-- A record that is created for a domain is a record of this domain only. -/
theorem ownRecords_created {content d : String} {new : List CfDnsRecord} (h : ∀ r ∈ new, CreatedFor domain content r) :
    ownRecords d new = if d = domain then new else [] := by
  by_cases hd : d = domain
  · subst hd
    rw [if_pos rfl]
    exact List.filter_eq_self.2 fun r hr => decide_eq_true ⟨(h r hr).type, (h r hr).name⟩
  · rw [if_neg hd, ownRecords, List.filter_eq_nil_iff]
    intro r hr hown
    exact hd ((of_decide_eq_true hown).2.symm.trans (h r hr).name)

/-- **What `set_record` does to the first records**: a success sets that of the domain, and a failure did so or changed
none. -/
theorem SetOutcome.firstAddress (hq : QueriesOwn domain) {result : Except Error Unit} {after : List CfDnsRecord}
    (h : SetOutcome z domain addr.toString result after) :
    (result = .ok () → DdnsIpv6.firstAddress after =
        Function.update (DdnsIpv6.firstAddress z.records) domain (some addr)) ∧
      (DdnsIpv6.firstAddress after = DdnsIpv6.firstAddress z.records ∨
        DdnsIpv6.firstAddress after = Function.update (DdnsIpv6.firstAddress z.records) domain (some addr)) := by
  have hown := queried_eq_ownRecords hq z
  cases h with
  | failed e => exact ⟨(fun he => by cases he), Or.inl rfl⟩
  | correct r rs hlist hc =>
    obtain ⟨a, ha, haddresses⟩ := addresses_cons (hown.symm.trans hlist)
    rw [hc, fromStr_toString, Option.some.injEq] at ha
    have hset : DdnsIpv6.firstAddress z.records =
        Function.update (DdnsIpv6.firstAddress z.records) domain (some addr) := by
      refine firstAddress_of_ownRecords (fun d _ => rfl) ?_
      rw [← Zone.addresses, haddresses, ha]
      rfl
    exact ⟨fun _ => hset, Or.inr hset⟩
  | updated r rs hlist hc =>
    have hfirst := hown.symm.trans hlist
    obtain ⟨hmem, htype, hname⟩ := Zone.of_queried_cons hlist
    have hset : DdnsIpv6.firstAddress (patched r.id addr.toString z.records) =
        Function.update (DdnsIpv6.firstAddress z.records) domain (some addr) := by
      refine firstAddress_of_ownRecords (fun d hd => ?_) ?_
      · -- the patched record is one of the domain
        rw [ownRecords_patched]
        refine patched_of_forall_ne fun s hs hid => hd ?_
        obtain ⟨hs, hsown⟩ := List.mem_filter.1 hs
        have hr : r ∈ ownRecords domain z.records := by
          rw [hfirst]
          exact List.mem_cons_self
        rw [← (of_decide_eq_true hsown).2, z.eq_of_id_eq hs hmem hid]
        exact (of_decide_eq_true (List.mem_filter.1 hr).2).2
      · rw [addressesOf, ownRecords_patched_first hfirst, List.filterMap_cons]
        simp only [CfDnsRecord.withContent, fromStr_toString, List.head?_cons]
    exact ⟨fun _ => hset, Or.inr hset⟩
  | created hlist new hnew _ hok =>
    have hnone : ownRecords domain z.records = [] := hown.symm.trans hlist
    have hset : new ≠ [] → DdnsIpv6.firstAddress (z.records ++ new) =
        Function.update (DdnsIpv6.firstAddress z.records) domain (some addr) := by
      intro hne
      have happend : ∀ d, ownRecords d (z.records ++ new) = ownRecords d z.records ++ ownRecords d new := fun d =>
        List.filter_append _ _
      refine firstAddress_of_ownRecords (fun d hd => ?_) ?_
      · rw [happend, ownRecords_created hnew, if_neg hd, List.append_nil]
      · obtain ⟨r, rs, rfl⟩ := List.exists_cons_of_ne_nil hne
        rw [addressesOf, happend, hnone, List.nil_append, ownRecords_created hnew, if_pos rfl, List.filterMap_cons,
          (hnew r List.mem_cons_self).content, fromStr_toString, List.head?_cons]
    refine ⟨fun he => hset (hok he), ?_⟩
    cases new with
    | nil => exact Or.inl (by rw [List.append_nil])
    | cons r rs => exact Or.inr (hset (List.cons_ne_nil r rs))

/-- A query leaves the zone alone, and tells the first record of a domain that it asks for. -/
theorem cloudflare_getRecord (api : ZoneApi) (token domain : String) (w : Remote api.service) :
    ((api.updater token).getRecord api.http domain w).2.state = w.state ∧
      ∀ r, ((api.updater token).getRecord api.http domain w).1 = .ok r → QueriesOwn domain →
        r = firstAddress w.state.records domain := by
  rcases hout : (api.updater token).requestWithRetry api.http BodyText.asList .get
    ((api.updater token).listPath domain) none w with ⟨answer, w'⟩
  obtain ⟨hstate, hlist⟩ := list_spec api token hout
  simp only [CloudflareUpdater.getRecord, hout]
  cases answer with
  | error e => exact ⟨hstate, fun r hr => by cases hr⟩
  | ok response =>
    by_cases hs : response.success = true
    · have hq := hlist response rfl hs
      simp only [if_pos hs]
      obtain hnil | ⟨record, records, hresult⟩ := records_nil_or_cons response
      · have hnone : QueriesOwn domain → firstAddress w.state.records domain = none := fun hown => by
          rw [firstAddress, addressesOf, ← queried_eq_ownRecords hown, ← hq, hnil]
          rfl
        cases hres : response.result with
        | none => exact ⟨hstate, fun r hr hown => (Except.ok.inj hr).symm.trans (hnone hown).symm⟩
        | some records =>
          rw [hres, Option.getD_some] at hnil
          subst hnil
          exact ⟨hstate, fun r hr hown => (Except.ok.inj hr).symm.trans (hnone hown).symm⟩
      · rw [hresult, Option.getD_some] at hq
        simp only [hresult]
        cases hc : Ipv6Addr.fromStr record.content with
        | none => exact ⟨hstate, fun r hr => by cases hr⟩
        | some addr =>
          refine ⟨hstate, fun r hr hown => (Except.ok.inj hr).symm.trans ?_⟩
          rw [firstAddress, addressesOf, ← queried_eq_ownRecords hown, ← hq, List.filterMap_cons, hc]
          rfl
    · simp only [if_neg hs]
      exact ⟨hstate, fun r hr => by cases hr⟩

/-- `CloudflareUpdater` for the domains that the list request asks for; it refuses the others. -/
def cloudflareRemote (api : ZoneApi) (token : String) : RemoteUpdater (Remote api.service) where
  setRecord domain addr w :=
    if QueriesOwn domain then (api.updater token).setRecord api.http domain addr w
    else (.error (.update domain (.client "another name")), w)
  getRecord domain w :=
    if QueriesOwn domain then (api.updater token).getRecord api.http domain w
    else (.error (.update domain (.client "another name")), w)
  records w := firstAddress w.state.records
  setRecord_ends domain addr w := by
    split
    · rename_i hq
      obtain ⟨hok, hany⟩ := (setRecord_outcome api token domain addr w).firstAddress hq
      cases hres : ((api.updater token).setRecord api.http domain addr w).1 with
      | ok u => exact Or.inl ⟨rfl, hok hres⟩
      | error e => exact Or.inr ⟨⟨e, rfl⟩, hany⟩
    · exact Or.inr ⟨⟨_, rfl⟩, Or.inl rfl⟩
  getRecord_frame domain w := by
    split
    · exact congrArg (fun z : Zone => firstAddress z.records) (cloudflare_getRecord api token domain w).1
    · rfl
  getRecord_truth domain w r h := by
    split at h
    · rename_i hq
      exact (cloudflare_getRecord api token domain w).2 r h hq
    · cases h

theorem cloudflare_servesAs (api : ZoneApi) (token : String) :
    ServesAs (cloudflareRemote api token).lossy ((api.updater token).toDnsUpdater api.http) QueriesOwn where
  setRecord domain hq addr w := by
    simp only [RemoteUpdater.lossy, cloudflareRemote, if_pos hq, CloudflareUpdater.toDnsUpdater]
  getRecord domain hq w := by
    simp only [RemoteUpdater.lossy, cloudflareRemote, if_pos hq, CloudflareUpdater.toDnsUpdater]

end Cloudflare

/-! ## Setting and getting records -/

/-- **What is set can be read back from the name server**: after any calls for any domains, whatever happens to their
messages, a `get_record` that succeeds tells what was set or read last for its domain, or what a call that failed after
that was to set, or, after such a call, that there is no record. -/
theorem rfc2136_readBack (calls : List (Call String Ipv6Addr)) (domain : String) (w : RemoteNameServer)
    (r : Option Ipv6Addr)
    (h : (nameServerUpdater.getRecord domain (nameServerUpdater.toDnsUpdater.client.calls calls w).2).1 = .ok r) :
    r ∈ held (fun addr => [none, some addr]) domain [w.state.firstRecords domain]
      (nameServerUpdater.toDnsUpdater.client.calls calls w).1 :=
  rfc2136_servesAs.honest.read_held (fun _ _ => trivial) trivial h

/-- A message that is lost on its way, and one that is carried out, but whose answer is lost. -/
def lostMessage (applied : Bool) : Outcome NameServer.service :=
  ⟨applied, fun _ _ => .error "timed out", fun _ _ h => by cases h⟩

/-- An address is set, and another one by a call that fails. -/
def sampleCalls : List (Call String Ipv6Addr) :=
  [.write "nas.example.com" ⟨0x2001, 0xdb8, 1, 0, 0, 0, 0, 1⟩,
    .write "nas.example.com" ⟨0x2001, 0xdb8, 2, 0, 0, 0, 0, 1⟩, .read "tv.example.com"]

/-- The addition of the second address is lost, and no record is left. -/
theorem rfc2136_readBack_lost :
    none ∈ held (fun addr => [none, some addr]) "nas.example.com" [none]
      (nameServerUpdater.toDnsUpdater.client.calls sampleCalls
        ⟨fun _ => [], [.good _, .good _, .good _, .good _, .good _, lostMessage false]⟩).1 :=
  rfc2136_readBack sampleCalls "nas.example.com"
    ⟨fun _ => [], [.good _, .good _, .good _, .good _, .good _, lostMessage false]⟩ none rfl

/-- **What is set can be read back from the zone**, for domains that the list request asks for; a call that fails has
set the address or done nothing. -/
theorem cloudflare_readBack (api : ZoneApi) (token : String) (calls : List (Call String Ipv6Addr))
    (hcalls : ∀ x ∈ calls, QueriesOwn x.key) (domain : String) (hdomain : QueriesOwn domain) (w : Remote api.service)
    (r : Option Ipv6Addr)
    (h : ((api.updater token).getRecord api.http domain
      (((api.updater token).toDnsUpdater api.http).client.calls calls w).2).1 = .ok r) :
    r ∈ held (fun addr => [some addr]) domain [firstAddress w.state.records domain]
      (((api.updater token).toDnsUpdater api.http).client.calls calls w).1 :=
  (cloudflare_servesAs api token).honest.read_held hcalls hdomain h

/-- A zone without records. -/
def emptyZone : Zone := ⟨[], by decide, by decide, by decide⟩

set_option maxRecDepth 4000 in
theorem cloudflare_readBack_nas :
    some ⟨0x2001, 0xdb8, 2, 0, 0, 0, 0, 1⟩ ∈ held (fun addr => [some addr]) "nas.example.com" [none]
      (((sampleApi.updater "token").toDnsUpdater sampleApi.http).client.calls sampleCalls ⟨emptyZone, []⟩).1 :=
  cloudflare_readBack sampleApi "token" sampleCalls (by decide) "nas.example.com" (by decide) ⟨emptyZone, []⟩
    (some ⟨0x2001, 0xdb8, 2, 0, 0, 0, 0, 1⟩) rfl

end DdnsIpv6

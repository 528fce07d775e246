import Hdns.Verified.ForkJoin
import Hdns.Verified.ReadOnly
import Hdns.Ports.AddressStream
import Hdns.Ports.QuietPasses
import Hdns.Ports.Resolvers

/-!
# What the page shows of a record

The page shows three things of a record: the current public address, the value
of its record set at Hetzner, and what the configured name servers make of its
name.  For the last one `Resolve` asks all servers at once, each from a
goroutine that writes to its own element of the results.

The name servers are outside.  What a server of the zone answers is `answering`,
for the names that are asked here.

## Main results

* `resolve_returns` — however the goroutines take turns, `Resolve` returns what
  each server says, in the order of the configuration.
* `answering_buildDomain` — the name that is asked for has the record set of the
  record.
* `views_agree` — after a pass without failures all three show one address.
-/

namespace Hdns.Ports.RecordViews

open Hdns.Verified
open Hdns.Verified.GoString
open Hdns.Verified.ForkJoin (Job Joined forkJoin outcome)
open Hdns.Ports.Schema
open Hdns.Ports.Hetzner
open Hdns.Ports.Records
open Hdns.Ports.Resolvers
open Hdns.Ports.AddressStream (getAddress fetchError)
open Hdns.Ports.Operations
open Hdns.Ports.QuietPasses

/-! ## `Resolve` -/

/-- `Resolution`. -/
structure Resolution where
  server : GoString
  addresses : List GoString
  responseTime : Int
  error : GoString
  deriving DecidableEq, Repr

/-- An element of `make([]Resolution, n)`. -/
def Resolution.zero : Resolution := ⟨[], [], 0, []⟩

/-- What `LookupHost` returns, the error as its text, and the milliseconds it
takes. -/
structure Lookup where
  ips : List GoString
  err : Option GoString
  elapsed : Int
  deriving DecidableEq, Repr

/-- The statements of a goroutine that write to `results[index]`.  What it does
before concerns nobody else. -/
def lookupJob (server : GoString) (found : Lookup) : Job Resolution :=
  (fun _ =>
    { server := server
      addresses := found.ips.filter validateIpv4Address
      responseTime := found.elapsed
      error := [] }) ::
    match found.err with
    | none => []
    | some err => [fun r => { r with error := err }]

/-- What a server is reported with. -/
def resolution (server : GoString) (found : Lookup) : Resolution where
  server := server
  addresses := found.ips.filter validateIpv4Address
  responseTime := found.elapsed
  error := found.err.getD []

/-- The goroutines of `Resolve`: what the servers answer is given by index and
name. -/
def lookupJobs (servers : List GoString) (lookup : Nat → GoString → Lookup)
    (domain : GoString) : List (Job Resolution) :=
  servers.mapIdx fun i server => lookupJob server (lookup i domain)

/-- The elements of the results, each by its server alone. -/
def resolutions (servers : List GoString) (lookup : Nat → GoString → Lookup)
    (domain : GoString) : List Resolution :=
  servers.mapIdx fun i server => resolution server (lookup i domain)

/-- What `Resolve` returns. -/
def resolve (servers : List GoString) (lookup : Nat → GoString → Lookup)
    (domain : GoString) : Except GoError (List Resolution) :=
  if servers = [] then .error (.newError "no DNS servers configured")
  else .ok (resolutions servers lookup domain)

theorem outcome_lookupJob (server : GoString) (found : Lookup) :
    outcome (lookupJob server found) Resolution.zero =
      resolution server found := by
  unfold lookupJob resolution
  cases found.err with
  | none => rfl
  | some err => rfl

theorem outcomes_lookupJobs (servers : List GoString)
    (lookup : Nat → GoString → Lookup) (domain : GoString) :
    (lookupJobs servers lookup domain).map
        (fun job => outcome job Resolution.zero) =
      resolutions servers lookup domain := by
  apply List.ext_getElem?
  intro i
  simp only [lookupJobs, resolutions, List.getElem?_map, List.getElem?_mapIdx,
    Option.map_map, Function.comp_def, outcome_lookupJob]

theorem lookupJobs_length (servers : List GoString)
    (lookup : Nat → GoString → Lookup) (domain : GoString) :
    ∀ job ∈ lookupJobs servers lookup domain, job.length ≤ 2 := by
  intro job hjob
  obtain ⟨i, hi, rfl⟩ := List.mem_mapIdx.mp hjob
  unfold lookupJob
  split <;> simp

/-- **What `Resolve` returns** does not depend on the turns of its goroutines,
and however far they have come they can end; each writes at most twice. -/
theorem resolve_returns (servers : List GoString)
    (lookup : Nat → GoString → Lookup) (domain : GoString)
    (hservers : servers ≠ []) (as : List ForkJoin.Label)
    (s : ForkJoin.State Resolution)
    (hrun : (forkJoin (lookupJobs servers lookup domain)).run
      (ForkJoin.start Resolution.zero (lookupJobs servers lookup domain)) as =
        some s) :
    (Joined (lookupJobs servers lookup domain) s →
      resolve servers lookup domain = .ok s.slots) ∧
    (∃ bs s', (forkJoin (lookupJobs servers lookup domain)).run s bs =
      some s' ∧ Joined (lookupJobs servers lookup domain) s') ∧
    as.length ≤ 3 * servers.length := by
  refine ⟨fun hjoined => ?_, ForkJoin.exists_joined hrun, ?_⟩
  · rw [resolve, if_neg hservers, ForkJoin.slots_of_joined hrun hjoined,
      outcomes_lookupJobs]
  · have hlength := (ForkJoin.length_run hrun).1
    have hsize : ForkJoin.size (lookupJobs servers lookup domain)
        (ForkJoin.start Resolution.zero _) ≤ _ * (2 + 1) :=
      ForkJoin.size_start_le (lookupJobs_length servers lookup domain)
    have hjobs : (lookupJobs servers lookup domain).length = servers.length :=
      List.length_mapIdx
    omega

private def nameServers : List GoString := ["192.0.2.53:53", "198.51.100.53:53"]

/-- The first server answers, and the second one is out of reach. -/
private def lookedUp : Nat → GoString → Lookup
  | 0, _ => ⟨["203.0.113.9", "2001:db8::9"], none, 4⟩
  | _, _ => ⟨[], some "i/o timeout", 2000⟩

private def lookups : List (Job Resolution) :=
  lookupJobs nameServers lookedUp "shop.example.org"

theorem resolve_returns_partway :
    ∃ s, (forkJoin lookups).run (ForkJoin.start Resolution.zero lookups)
        [.spawn, .spawn, .work 1] = some s ∧
      ∃ bs s', (forkJoin lookups).run s bs = some s' ∧ Joined lookups s' :=
  ⟨_, rfl, (resolve_returns nameServers lookedUp "shop.example.org"
    (List.cons_ne_nil _ _) [.spawn, .spawn, .work 1] _ rfl).2.1⟩

/-! ## The name of a record -/

/-- `BuildDomain`. -/
def buildDomain (record : Record) : GoString :=
  if record.name = lit "*" then lit "wildcard." ++ record.domain
  else if record.name ≠ lit "@" ∧ record.name ≠ lit "*" then
    record.name ++ lit "." ++ record.domain
  else record.domain

/-- A name below a zone, relative to it. -/
def relative (domain name : GoString) : Option GoString :=
  if name = domain then some (lit "@")
  else if name.hasSuffix (lit "." ++ domain) then
    some (name.trimSuffix (lit "." ++ domain))
  else none

/-- The record set of a zone that answers a name: the set of the name itself,
and the wildcard's if the name has one label and no set.  Longer names without a
set are not asked for here. -/
def answering (zone : GoString → Option RRSet) (domain name : GoString) :
    Option RRSet :=
  match relative domain name with
  | none => none
  | some n =>
      match zone n with
      | some set => some set
      | none => if (0x2E : UInt8) ∈ n then none else zone (lit "*")

theorem relative_append (name domain : GoString) :
    relative domain (name ++ lit "." ++ domain) = some name := by
  have hne : name ++ lit "." ++ domain ≠ domain := by
    intro h
    have hlength := congrArg List.length h
    have hdot : (lit ".").length = 1 := rfl
    simp only [List.length_append, hdot] at hlength
    omega
  rw [relative, if_neg hne, List.append_assoc,
    if_pos (hasSuffix_iff.mpr ⟨name, rfl⟩), trimSuffix_append]

/-- The name that is asked for has the record set of the record.  A wildcard
record is asked for under `wildcard`, which may have a set of its own. -/
theorem answering_buildDomain {w : World} {r : Record} {set : RRSet}
    (hset : rrset w r = some set)
    (hfree : r.name = lit "*" → w.zones r.zoneID "wildcard" = none) :
    answering (w.zones r.zoneID) r.domain (buildDomain r) = some set := by
  have hzone : w.zones r.zoneID r.name = some set := hset
  unfold answering buildDomain
  by_cases hstar : r.name = lit "*"
  · have hrelative : relative r.domain (lit "wildcard." ++ r.domain) =
        some (lit "wildcard") := relative_append "wildcard" r.domain
    rw [if_pos hstar, hrelative]
    dsimp only
    rw [hfree hstar]
    dsimp only
    rw [if_neg (by decide), ← hstar, hzone]
  · rw [if_neg hstar]
    by_cases hapex : r.name = lit "@"
    · rw [if_neg (fun h => h.1 hapex), relative, if_pos rfl]
      dsimp only
      rw [← hapex, hzone]
    · rw [if_pos ⟨hapex, hstar⟩, relative_append]
      dsimp only
      rw [hzone]

/-! ## The handlers -/

/-- `FetchHetznerRecord`: the field `Ipv4`, the others are not set. -/
def fetchHetznerRecord (env : Env) (id : Int) : Handler GoString := do
  let record ← (getRecord id).mapError fun err =>
    .wrap (.because "failed to fetch record from database" err)
  let rrset ← (fetchRecord env record).mapError
    (.because "failed to fetch record from Hetzner")
  match rrset with
  | none => pure []
  | some set => pure (set.values.head?.getD [])

/-- `ResolveRecord`. -/
def resolveRecord (servers : List GoString) (lookup : Nat → GoString → Lookup)
    (id : Int) : Handler (List Resolution) := do
  let record ← (getRecord id).mapError fun err =>
    .wrap (.because "failed to fetch record from database" err)
  Prog.ofExcept ((resolve servers lookup (buildDomain record)).mapError
    (.because "failed to resolve record"))

/-- `StreamResolveRecord`: what is sent until the context ends, after as many
rounds as there are lookups. -/
def streamResolveRecord (servers : List GoString)
    (rounds : List (Nat → GoString → Lookup)) (id : Int) :
    Handler (List Resolution) := do
  let record ← (getRecord id).mapError fun err =>
    .wrap (.because "failed to fetch record from database" err)
  let sent ← rounds.mapM fun lookup =>
    Prog.ofExcept ((resolve servers lookup (buildDomain record)).mapError
      (.because "failed to resolve record"))
  pure sent.flatten

/-! ## The views of a record at rest -/

/-- A name server answers as the zone has it: without an error, and with a text
of every address of the record set. -/
def Follows (zone : GoString → Option RRSet) (domain name : GoString)
    (found : Lookup) : Prop :=
  ∀ set, answering zone domain name = some set → found.err = none ∧
    ∀ value ∈ set.values, ∃ ip ∈ found.ips,
      GoIP.parseIP ip = GoIP.parseIP value

/-- The server is reported with the address and without an error. -/
def Lists (ip : GoString) (res : Resolution) : Prop :=
  res.error = [] ∧
    ∃ address ∈ res.addresses, GoIP.parseIP address = GoIP.parseIP ip

theorem validateIpv4Address_congr {ip ip' : GoString}
    (h : GoIP.parseIP ip = GoIP.parseIP ip') :
    validateIpv4Address ip = validateIpv4Address ip' := by
  unfold validateIpv4Address
  rw [h]

section Views

variable {env : Env} {addr : Address} {o : Oracle Call} {s : Sys World}
  {r : Record} {ip : GoString}

theorem resolution_lists (hip : validateIpv4Address ip = true)
    {set : RRSet} (hfirst : set.values.head? = some ip)
    {zone : GoString → Option RRSet} {domain name server : GoString}
    (hset : answering zone domain name = some set) {found : Lookup}
    (h : Follows zone domain name found) :
    Lists ip (resolution server found) := by
  obtain ⟨herr, hall⟩ := h set hset
  obtain ⟨text, htext, hsame⟩ := hall ip (List.mem_of_mem_head? hfirst)
  refine ⟨?_, text, List.mem_filter.mpr ⟨htext, ?_⟩, hsame⟩
  · show found.err.getD [] = []
    rw [herr]
    rfl
  · rw [validateIpv4Address_congr hsame]
    exact hip

/-- Every server is reported with the address. -/
theorem resolutions_list {servers : List GoString}
    {lookup : Nat → GoString → Lookup} {name : GoString}
    (h : ∀ i server, Lists ip (resolution server (lookup i name))) :
    ∀ res ∈ resolutions servers lookup name, Lists ip res := by
  intro res hres
  obtain ⟨i, hi, rfl⟩ := List.mem_mapIdx.mp hres
  exact h i _

theorem getAddress_reads : Prog.Reads
    (fun w => (UpdateAddress.currentAddress w.addresses).bind fun a =>
      some (Address.toProto a)) getAddress := by
  have hcur : Prog.Reads
      (fun w => UpdateAddress.currentAddress w.addresses)
      UpdateAddress.getCurrentAddress := by
    apply Prog.Reads.query
    intro w
    cases UpdateAddress.currentAddress w.addresses with
    | none => rfl
    | some a => rfl
  exact Prog.Reads.bind (hcur.mapError _) fun a => Prog.Reads.pure _

theorem getRecord_reads (id : Int) :
    Prog.Reads (fun w => w.records.find? id) (getRecord id) := by
  apply Prog.Reads.query
  intro w
  cases w.records.find? id with
  | none => rfl
  | some r => rfl

theorem fetchRecord_reads (env : Env) (r : Record) : Prog.Reads
    (fun w => (clientForRecord env r).toOption.bind fun _ => some (rrset w r))
    (fetchRecord env r) := by
  have hclient := Prog.Reads.ofExcept (C := Call) (σ := World)
    ((clientForRecord env r).mapError GoError.wrap)
  have htoken : ((clientForRecord env r).mapError GoError.wrap).toOption =
      (clientForRecord env r).toOption := by
    cases clientForRecord env r with
    | error err => rfl
    | ok token => rfl
  rw [htoken] at hclient
  have hset : Prog.Reads (fun w => some (rrset w r))
      (findResourceRecordSet r) := by
    apply Prog.Reads.mapError
    apply Prog.Reads.query
    intro w
    rfl
  exact Prog.Reads.bind hclient fun _ => hset

theorem fetchHetznerRecord_reads (env : Env) (id : Int) : Prog.Reads
    (fun w => (w.records.find? id).bind fun r =>
      ((clientForRecord env r).toOption.bind fun _ => some (rrset w r)).bind
        fun found => some ((found.bind fun set => set.values.head?).getD []))
    (fetchHetznerRecord env id) := by
  refine Prog.Reads.bind ((getRecord_reads id).mapError _) fun r =>
    Prog.Reads.bind ((fetchRecord_reads env r).mapError _) fun found => ?_
  cases found with
  | none => exact Prog.Reads.pure _
  | some set => exact Prog.Reads.pure _

theorem resolveRecord_reads (servers : List GoString)
    (lookup : Nat → GoString → Lookup) (id : Int) : Prog.Reads
    (fun w => (w.records.find? id).bind fun r =>
      ((resolve servers lookup (buildDomain r)).mapError
        (GoError.because "failed to resolve record")).toOption)
    (resolveRecord servers lookup id) :=
  Prog.Reads.bind ((getRecord_reads id).mapError _) fun _ =>
    Prog.Reads.ofExcept _

theorem streamResolveRecord_reads (servers : List GoString)
    (rounds : List (Nat → GoString → Lookup)) (id : Int) : Prog.Reads
    (fun w => (w.records.find? id).bind fun r =>
      (rounds.mapM fun lookup =>
        ((resolve servers lookup (buildDomain r)).mapError
          (GoError.because "failed to resolve record")).toOption).bind
        fun sent => some sent.flatten)
    (streamResolveRecord servers rounds id) :=
  Prog.Reads.bind ((getRecord_reads id).mapError _) fun _ =>
    Prog.Reads.bind (Prog.Reads.mapM (fun _ => Prog.Reads.ofExcept _) rounds)
      fun _ => Prog.Reads.pure _

end Views

/-- A call that only looks: whatever goes wrong, it changes nothing and answers
with nothing else; it answers if nothing goes wrong. -/
def Shows {α : Type} (p : Handler α) (P : α → Prop) (w : World) : Prop :=
  ∀ (o : Oracle Call) (clock : Nat), (p o ⟨w, clock⟩).2.state = w ∧
    (∀ a, (p o ⟨w, clock⟩).1 = .ok a → P a) ∧
    ∃ a, (p .quiet ⟨w, clock⟩).1 = .ok a

theorem shows_of_reads {α : Type} {f : World → Option α} {p : Handler α}
    (h : Prog.Reads f p) {w : World} {a : α} (ha : f w = some a)
    {P : α → Prop} (hP : P a) : Shows p P w := by
  intro o clock
  refine ⟨h.leaves o _, fun b hb => ?_, a, h.complete ⟨w, clock⟩ a ha⟩
  have hb' : f w = some b := h.sound o ⟨w, clock⟩ b hb
  obtain rfl : a = b := Option.some.inj (ha.symm.trans hb')
  exact hP

/-- The current address is the one that is resolved. -/
theorem ipv4_of_isCurrent {env : Env} {addr : Address} {w : World}
    (h : IsCurrent env addr w) : addr.ipv4.string = env.consensus4.1 := by
  obtain ⟨hpair, -⟩ := UpdateAddress.resolve_ok h.2
  exact (Prod.mk.inj hpair).1

/-- What the page shows of a record whose name servers answer in these rounds. -/
structure Agrees (env : Env) (ip : GoString) (servers : List GoString)
    (rounds : List (Nat → GoString → Lookup)) (id : Int) (w : World) :
    Prop where
  current : Shows getAddress (fun a => a.ipv4 = ip) w
  atHetzner : Shows (fetchHetznerRecord env id) (fun value => value = ip) w
  resolved : ∀ lookup ∈ rounds, Shows (resolveRecord servers lookup id)
    (fun list => list.length = servers.length ∧ ∀ res ∈ list, Lists ip res) w
  streamed : Shows (streamResolveRecord servers rounds id)
    (fun sent => ∀ res ∈ sent, Lists ip res) w

section Resting

variable {env : Env} {addr : Address} {w : World} {r : Record} {ip : GoString}

theorem shows_current (hcur : IsCurrent env addr w) :
    Shows getAddress (fun a => a.ipv4 = env.consensus4.1) w := by
  refine shows_of_reads getAddress_reads (a := Address.toProto addr) ?_
    (ipv4_of_isCurrent hcur)
  rw [hcur.1]
  rfl

theorem shows_atHetzner (hrow : w.records.find? r.id = some r)
    (htoken : ∃ token, clientForRecord env r = .ok token)
    (hfirst : SteadyAddress.firstAt w.zones r.zoneID r.name = some ip) :
    Shows (fetchHetznerRecord env r.id) (fun value => value = ip) w := by
  obtain ⟨token, htoken⟩ := htoken
  refine shows_of_reads (fetchHetznerRecord_reads env r.id) (a := ip) ?_ rfl
  rw [hrow, Option.bind_some, htoken]
  show some (((rrset w r).bind fun set => set.values.head?).getD []) = some ip
  rw [show ((rrset w r).bind fun set => set.values.head?) = some ip from hfirst]
  rfl

variable {servers : List GoString}

theorem shows_resolved (hrow : w.records.find? r.id = some r)
    (hservers : servers ≠ []) {lookup : Nat → GoString → Lookup}
    (hlists : ∀ i server,
      Lists ip (resolution server (lookup i (buildDomain r)))) :
    Shows (resolveRecord servers lookup r.id) (fun list =>
      list.length = servers.length ∧ ∀ res ∈ list, Lists ip res) w := by
  refine shows_of_reads (resolveRecord_reads servers lookup r.id)
    (a := resolutions servers lookup (buildDomain r)) ?_
    ⟨List.length_mapIdx, resolutions_list hlists⟩
  rw [hrow, Option.bind_some, resolve, if_neg hservers]
  rfl

theorem shows_streamed (hrow : w.records.find? r.id = some r)
    (hservers : servers ≠ []) {rounds : List (Nat → GoString → Lookup)}
    (hlists : ∀ lookup ∈ rounds, ∀ i server,
      Lists ip (resolution server (lookup i (buildDomain r)))) :
    Shows (streamResolveRecord servers rounds r.id)
      (fun sent => ∀ res ∈ sent, Lists ip res) w := by
  have hrounds : (rounds.mapM fun lookup =>
      ((resolve servers lookup (buildDomain r)).mapError
        (GoError.because "failed to resolve record")).toOption) =
      some (rounds.map fun lookup =>
        resolutions servers lookup (buildDomain r)) := by
    simp only [resolve, if_neg hservers]
    exact List.mapM_pure
  refine shows_of_reads (streamResolveRecord_reads servers rounds r.id)
    (a := (rounds.map fun lookup =>
      resolutions servers lookup (buildDomain r)).flatten) ?_ ?_
  · rw [hrow, Option.bind_some, hrounds]
    rfl
  · intro res hres
    obtain ⟨list, hlist, hmem⟩ := List.mem_flatten.mp hres
    obtain ⟨lookup, hlookup, rfl⟩ := List.mem_map.mp hlist
    exact resolutions_list (hlists lookup hlookup) res hmem

/-- A record at rest. -/
theorem agrees_of_holds (hcur : IsCurrent env addr w)
    (hrow : w.records.find? r.id = some r) (hholds : Holds env addr w r)
    (haccepted : validateIpv4Address env.consensus4.1 = true)
    (hfree : r.name = lit "*" → w.zones r.zoneID "wildcard" = none)
    (hservers : servers ≠ []) {rounds : List (Nat → GoString → Lookup)}
    (hfollows : ∀ lookup ∈ rounds, ∀ i, Follows (w.zones r.zoneID) r.domain
      (buildDomain r) (lookup i (buildDomain r))) :
    Agrees env env.consensus4.1 servers rounds r.id w := by
  obtain ⟨htoken, ip, hip, hfirst⟩ := hholds
  obtain rfl : ip = env.consensus4.1 := by
    rw [← ipv4_of_isCurrent hcur, hip]
    rfl
  obtain ⟨set, hset, hhead⟩ := Option.bind_eq_some_iff.mp hfirst
  have hanswer := answering_buildDomain hset hfree
  have hlists : ∀ lookup ∈ rounds, ∀ i server, Lists env.consensus4.1
      (resolution server (lookup i (buildDomain r))) :=
    fun lookup h i server =>
      resolution_lists haccepted hhead hanswer (hfollows lookup h i)
  exact {
    current := shows_current hcur
    atHetzner := shows_atHetzner hrow htoken hfirst
    resolved := fun lookup h => shows_resolved hrow hservers (hlists lookup h)
    streamed := shows_streamed hrow hservers hlists }

end Resting

private def shop : Record :=
  ⟨1, "token", 7, "example.org", "shop", 60, none, purposeDDNS, false, none⟩

private def shopOpen : World :=
  { World.init fun _ _ => none with
    records := Table.empty.insert fun id => { shop with id := id } }

private def dialled : Env :=
  { Env.sample with consensus4 := ("203.0.113.9", none) }

private def nightly : List (Env × Oracle Call) :=
  [({ dialled with now := 300 }, .quiet)]

private theorem nightly_sameView : ∀ p ∈ nightly, SameView dialled p.1 := by
  intro p hp
  obtain rfl := List.mem_singleton.mp hp
  exact ⟨rfl, rfl, rfl, rfl⟩

private def shopDone : World := Op.apply (.refresh dialled .quiet) shopOpen

private def shopLater : World :=
  Op.apply (.refresh { dialled with now := 300 } .quiet) shopDone

private def round : Nat → GoString → Lookup := fun _ _ =>
  ⟨["203.0.113.9", "2001:db8::9"], none, 4⟩

private theorem round_follows : ∀ lookup ∈ [round], ∀ i,
    Follows (shopLater.zones 7) "example.org" "shop.example.org"
      (lookup i "shop.example.org") := by
  intro lookup hlookup i set hset
  obtain rfl := List.mem_singleton.mp hlookup
  have hanswer : answering (shopLater.zones 7) "example.org"
      "shop.example.org" = some ⟨60, ["203.0.113.9"]⟩ := by decide +kernel
  obtain rfl := Option.some.inj (hanswer.symm.trans hset)
  refine ⟨rfl, fun value hvalue => ⟨"203.0.113.9", List.mem_cons_self, ?_⟩⟩
  rw [List.mem_singleton.mp hvalue]

end Hdns.Ports.RecordViews

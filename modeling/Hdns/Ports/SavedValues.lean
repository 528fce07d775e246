import Hdns.Ports.CertificateEdits
import Hdns.Ports.CertificateReports
import Hdns.Ports.Convergence
import Hdns.Ports.TaskEdits
import Hdns.Ports.UpsertFailure
import Hdns.Verified.FixedWidth

/-!
# Where the values of a saved record and a saved task end up

`UpsertRecord` and `UpsertTask` narrow what a request holds to the types of the
columns, and the lists of the API widen the columns again: a TTL goes through
`int32`, a purpose and a trigger go through `int8`, and no range is checked.  The
TTL takes part in the creation of an A record set only; where there is one, its
values are replaced and its TTL stays.

## Main results

* `saved_ttl_reaches_dns_iff` — which saves leave an A record set with the TTL
  that was asked for.
* `saved_values_read_back_iff` — which saves read back as they were written.
-/

namespace Hdns.Ports.SavedValues

open Hdns.Verified
open Hdns.Verified.GoString
open Hdns.Ports.Schema
open Hdns.Ports.UpdateAddress
open Hdns.Ports.Hetzner
open Hdns.Ports.Tasks
open Hdns.Ports.Service
open Hdns.Ports.Records
open Hdns.Ports.Operations
open Hdns.Ports.CertificateReports
open Hdns.Ports.TaskEdits

/-! ## TTLs at Hetzner -/

/-- The TTL that a request to create an A record set holds. -/
def Event.ttlHanded : Event → Option Int
  | .writeA _ _ none after => some after.ttl
  | _ => none

/-- The TTLs handed to Hetzner so far. -/
def ttlsHanded (w : World) : List Int := w.events.filterMap Event.ttlHanded

/-- The TTLs that a write for the record hands over. -/
def newTtls (r : Record) (w : World) : List Int :=
  if rrset w r = none then [r.ttl.toInt] else []

/-- The TTL a write for the record leaves: that of the record set, if there is
one. -/
def ttlAfter (r : Record) (w : World) : Int :=
  (rrset w r).elim r.ttl.toInt RRSet.ttl

/-- The zones stay, and no TTL is handed over. -/
structure Unwritten (w w' : World) : Prop where
  zones : w'.zones = w.zones
  ttls : ttlsHanded w' = ttlsHanded w

/-- The record has an A record set, with the TTL a write leaves. -/
structure Written (r : Record) (w w' : World) : Prop where
  set : ∃ set, rrset w' r = some set ∧ set.ttl = ttlAfter r w
  ttls : ttlsHanded w' = ttlsHanded w ++ newTtls r w

theorem Unwritten.refl (w : World) : Unwritten w w := ⟨rfl, rfl⟩

theorem Unwritten.trans (w₁ w₂ w₃ : World) (h : Unwritten w₁ w₂)
    (h' : Unwritten w₂ w₃) : Unwritten w₁ w₃ :=
  ⟨h'.zones.trans h.zones, h'.ttls.trans h.ttls⟩

/-- Events that are no writes hand nothing over. -/
private theorem ttlsHanded_append {w w' : World} {es : List Event}
    (hes : w'.events = w.events ++ es)
    (hnone : ∀ e ∈ es, Event.ttlHanded e = none) :
    ttlsHanded w' = ttlsHanded w := by
  have hempty : es.filterMap Event.ttlHanded = [] :=
    List.filterMap_eq_nil_iff.mpr hnone
  rw [ttlsHanded, hes, List.filterMap_append, hempty, List.append_nil]
  rfl

theorem Unwritten.of_calm {w w' : World} (h : Calm w w') : Unwritten w w' := by
  obtain ⟨es, hes, hcalm⟩ := h.events
  refine ⟨h.zones, ttlsHanded_append hes fun e he => ?_⟩
  cases e with
  | writeA r addr before after => exact absurd rfl (hcalm _ he)
  | _ => rfl

theorem Unwritten.of_runs {w w' : World} (h : RunsTasks w w') :
    Unwritten w w' := by
  obtain ⟨es, hes, hruns⟩ := h.events
  refine ⟨by rw [h.frame], ttlsHanded_append hes fun e he => ?_⟩
  obtain ⟨id, event, rfl⟩ := hruns e he
  rfl

theorem Written.after {r : Record} {w₁ w₂ w₃ : World} (h : Written r w₂ w₃)
    (h' : Unwritten w₁ w₂) : Written r w₁ w₃ := by
  obtain ⟨set, hset, httl⟩ := h.set
  have hsame : rrset w₂ r = rrset w₁ r := by rw [rrset, rrset, h'.zones]
  refine ⟨⟨set, hset, ?_⟩, ?_⟩
  · rw [httl, ttlAfter, ttlAfter, hsame]
  · rw [h.ttls, h'.ttls, newTtls, newTtls, hsame]

theorem Written.before {r : Record} {w₁ w₂ w₃ : World} (h : Written r w₁ w₂)
    (h' : Unwritten w₂ w₃) : Written r w₁ w₃ := by
  obtain ⟨set, hset, httl⟩ := h.set
  refine ⟨⟨set, ?_, httl⟩, h'.ttls.trans h.ttls⟩
  rw [← hset, rrset, rrset, h'.zones]

section Writes

variable {env : Env} {o : Oracle Call} {s : Sys World} {r : Record}
  {addr : Address}

theorem wpOk_unwritten {α : Type} {p : Handler α} (h : Prog.Keeps o Calm p) :
    p.wpOk o s fun _ t => Unwritten s.state t.state :=
  Prog.wpOk_mono (Prog.wpOk_of_keeps h) fun _ _ => Unwritten.of_calm

/-- A record set that is there is what a write would leave of its TTL. -/
theorem written_of_found {w : World} (h : rrset w r ≠ none) :
    Written r w w := by
  obtain ⟨set, hset⟩ := Option.ne_none_iff_exists'.mp h
  refine ⟨⟨set, hset, ?_⟩, ?_⟩
  · rw [ttlAfter, hset]
    rfl
  · rw [newTtls, if_neg h, List.append_nil]

/-- A write of that TTL. -/
theorem written_write {w : World} {new : RRSet}
    (hnew : new.ttl = ttlAfter r w) : Written r w (write r addr new w) := by
  refine ⟨⟨new, Zones.set_self _ _ _ _, hnew⟩, ?_⟩
  have hlog : ttlsHanded (write r addr new w) = ttlsHanded w ++
      [.writeA r addr (rrset w r) new].filterMap Event.ttlHanded :=
    List.filterMap_append
  rw [hlog, newTtls]
  cases hset : rrset w r with
  | none =>
      rw [ttlAfter, hset] at hnew
      exact congrArg (fun ttl => ttlsHanded w ++ [ttl]) hnew
  | some old => rfl

/-- **The two requests**: creating sets the TTL of the record, and replacing
keeps the TTL of the record set. -/
theorem upsertResourceRecordSet_written (ip : GoString) :
    (upsertResourceRecordSet r addr ip).wpOk o s fun _ t =>
      Written r s.state t.state := by
  refine Prog.wpOk_bind (Prog.wpOk_mapError
    (Prog.wpOk_mono (Convergence.findResourceRecordSet_ok r) ?_))
  rintro found t ⟨hstate, hfound⟩
  rw [← hstate]
  cases found with
  | none =>
      refine Prog.wpOk_mapError (Prog.wpOk_call fun _ _ => ?_)
      rw [createRRSet, ← hfound]
      refine written_write ?_
      rw [ttlAfter, ← hfound]
      rfl
  | some old =>
      refine Prog.wpOk_mapError (Prog.wpOk_call fun _ _ => ?_)
      rw [setRRSetRecords, ← hfound]
      refine written_write ?_
      rw [ttlAfter, ← hfound]
      rfl

theorem updateRecord_written :
    (updateRecord env r addr).wpOk o s fun _ t =>
      Written r s.state t.state := by
  refine Prog.wpOk_bind (Prog.wpOk_ofExcept fun token _ => ?_)
  refine Prog.wpOk_bind (Prog.wpOk_mapError
    (Prog.wpOk_mono (upsertResourceRecordSet_written _) ?_))
  intro _ t hwritten
  refine Prog.wpOk_bind (Prog.wpOk_mapError
    (Prog.wpOk_mono (wpOk_unwritten (updateRecordAddress_calm o addr.id r.id))
      fun _ u hunwritten => ?_))
  exact Prog.wpOk_pure (hwritten.before hunwritten)

/-- On each of the three paths the record ends up with a record set. -/
theorem applyCurrent_written (ipv4 : GoString) :
    (applyCurrent env r addr ipv4).wpOk o s fun _ t =>
      Written r s.state t.state := by
  refine Prog.wpOk_bind (Prog.wpOk_mono (Convergence.fetchRecord_ok env r) ?_)
  rintro found t ⟨hstate, hfound, -⟩
  rw [← hstate]
  split
  · next hfirst =>
    refine Prog.wpOk_pure (written_of_found fun hnone => ?_)
    rw [hfound, hnone] at hfirst
    cases hfirst
  · refine Prog.wpOk_bind (Prog.wpOk_mono updateRecord_written ?_)
    intro record u hwritten
    refine Prog.wpOk_bind (Prog.wpOk_mono (Prog.wpOk_of_keeps
      (fireTasks_runs o env record.id triggerIP none)) fun _ v hruns => ?_)
    exact Prog.wpOk_pure (hwritten.before (.of_runs hruns))

theorem refreshRecord_written (hddns : recordDoesDDNS r.purpose = true) :
    (refreshRecord env r).wpOk o s fun _ t => Written r s.state t.state := by
  rw [refreshRecord, if_pos hddns]
  refine Prog.wpOk_bind (Prog.wpOk_mapError
    (Prog.wpOk_query fun current _ => ?_))
  split
  · exact Prog.wpOk_throw _
  · exact applyCurrent_written _

end Writes

/-! ## What a save stores -/

/-- A row with the columns of the request. -/
def RowOf (input : RecordInput) (r : Record) : Prop :=
  ∃ token, r = UpsertFailure.storedRow (input.params token) r.id r.addressID

/-- The record a request asks for, but for its token. -/
def asked (input : RecordInput) : Record :=
  UpsertFailure.storedRow (input.params []) input.id none

theorem RowOf.of_saved {input : RecordInput} {r r' : Record}
    (h : RowOf input r)
    (hsaved : IssuanceSteps.savedColumns r' = IssuanceSteps.savedColumns r) :
    RowOf input r' := by
  obtain ⟨token, hr⟩ := h
  refine ⟨token, ?_⟩
  rw [hr] at hsaved
  cases r'
  simp only [IssuanceSteps.savedColumns, UpsertFailure.storedRow,
    Record.mk.injEq] at hsaved ⊢
  simp [hsaved]

/-- A row of the request names the record set that the request names. -/
theorem RowOf.written {input : RecordInput} {r : Record} {w w' : World}
    (h : RowOf input r) (hwritten : Written r w w') :
    Written (asked input) w w' := by
  obtain ⟨token, hr⟩ := h
  rw [hr] at hwritten
  exact ⟨hwritten.set, hwritten.ttls⟩

section Save

variable {env : Env} {o : Oracle Call} {s : Sys World} {input : RecordInput}

/-- A row that is there under the id of the save is the request's. -/
theorem storeRow_ok (token : GoString) :
    (storeRow env input token).wpOk o s fun id t =>
      ∀ r, t.state.records.find? id = some r → RowOf input r := by
  unfold storeRow
  split
  · refine Prog.wpOk_mapError (Prog.wpOk_call fun id hid r hr => ?_)
    split at hid
    · cases hid
    split at hid
    · cases hid
    obtain rfl := Except.ok.inj hid
    rw [if_neg ‹_›, if_neg ‹_›] at hr
    obtain rfl := Option.some.inj ((Table.find?_insert_self _ _ _).symm.trans hr)
    exact ⟨token, rfl⟩
  · refine Prog.wpOk_bind (Prog.wpOk_mapError (Prog.wpOk_call fun u hu => ?_))
    refine Prog.wpOk_pure fun r hr => ?_
    by_cases hmissing : (s.state.records.find? input.id).isNone = true
    · rw [if_pos hmissing] at hr
      rw [hr] at hmissing
      cases hmissing
    rw [if_neg hmissing] at hu hr
    split at hu
    · cases hu
    split at hu
    · cases hu
    rw [if_neg ‹_›, if_neg ‹_›, Table.find?_updateWhere] at hr
    obtain ⟨row, hrow, rfl⟩ := Option.map_eq_some_iff.mp hr
    have hkey : row.id = input.id := Table.find?_key hrow
    refine ⟨token, ?_⟩
    simp [hkey, UpsertFailure.storedRow]

/-- **What a save returns** is the stored row of the request. -/
theorem saveRecord_ok (encrypted : GoString) :
    (saveRecord env input encrypted).wpOk o s fun r t =>
      t.state.records.find? r.id = some r ∧ RowOf input r := by
  refine Prog.wpOk_bind (Prog.wpOk_bind_any fun token t => ?_)
  refine Prog.wpOk_mono (storeRow_ok token) fun id u hrow => ?_
  refine Prog.wpOk_mapError (Prog.wpOk_mono (getRecord_ok o u id) ?_)
  rintro r v ⟨hv, hr⟩
  have hkey : r.id = id := Table.find?_key hr
  rw [hv, hkey]
  exact ⟨hr, hrow r hr⟩

/-- The answer is the record as the server shows records. -/
theorem answer_id (r : Record) :
    (Records.answer r).wpOk o s fun ans _ => ans.id = r.id := by
  unfold Records.answer
  split
  · exact Prog.wpOk_pure rfl
  · exact Prog.wpOk_bind_any fun _ _ => Prog.wpOk_pure rfl

/-- What a refresh does to the A record set of a saved record. -/
structure Refreshed (input : RecordInput) (w w' : World) : Prop where
  synced : recordDoesDDNS input.purpose.toInt8 = true →
    Written (asked input) w w'
  other : recordDoesDDNS input.purpose.toInt8 = false → Unwritten w w'

theorem Refreshed.after {w₁ w₂ w₃ : World} (h : Refreshed input w₂ w₃)
    (h' : Unwritten w₁ w₂) : Refreshed input w₁ w₃ :=
  ⟨fun hddns => (h.synced hddns).after h',
    fun hother => h'.trans _ _ _ (h.other hother)⟩

theorem Refreshed.before {w₁ w₂ w₃ : World} (h : Refreshed input w₁ w₂)
    (h' : Unwritten w₂ w₃) : Refreshed input w₁ w₃ :=
  ⟨fun hddns => (h.synced hddns).before h',
    fun hother => (h.other hother).trans _ _ _ h'⟩

theorem refreshRecord_refreshed {r : Record} (hrow : RowOf input r) :
    (refreshRecord env r).wpOk o s fun _ t =>
      Refreshed input s.state t.state := by
  have hpurpose : r.purpose = input.purpose.toInt8 := by
    obtain ⟨token, hr⟩ := hrow
    rw [hr]
    rfl
  by_cases hddns : recordDoesDDNS r.purpose = true
  · refine Prog.wpOk_mono (refreshRecord_written hddns) fun _ t h => ?_
    rw [hpurpose] at hddns
    exact ⟨fun _ => hrow.written h, fun hother => by simp [hddns] at hother⟩
  · rw [refreshRecord, if_neg hddns]
    rw [hpurpose] at hddns
    exact Prog.wpOk_pure ⟨fun h => absurd h hddns, fun _ => .refl s.state⟩

/-- The row `id` is the request's. -/
def Holds (input : RecordInput) (id : Int) (w : World) : Prop :=
  ∃ r, w.records.find? id = some r ∧ RowOf input r

theorem Holds.of_aside {id : Int} {w w' : World} (h : Holds input id w)
    (haside : IssuanceSteps.Aside w w') : Holds input id w' := by
  obtain ⟨r, hr, hrow⟩ := h
  have hsame := haside.records id
  rw [hr] at hsame
  obtain ⟨r', hr', hsaved⟩ := Option.map_eq_some_iff.mp hsame
  exact ⟨r', hr', hrow.of_saved hsaved⟩

theorem Holds.of_records {id : Int} {w w' : World} (h : Holds input id w)
    (hkept : RecordsKept w w') : Holds input id w' := by
  obtain ⟨r, hr, hrow⟩ := h
  exact ⟨r, by rw [hkept, hr], hrow⟩

/-- What follows the save shows the record and leaves its row alone. -/
theorem afterSave_ok {r : Record} (hholds : Holds input r.id s.state)
    (hrow : RowOf input r) :
    (afterSave env r).wpOk o s fun ans t =>
      Holds input ans.id t.state ∧ Refreshed input s.state t.state := by
  refine Prog.wpOk_bind (Prog.wpOk_mapError (Prog.wpOk_mono (Prog.wpOk_and
    (refreshRecord_refreshed hrow) (Prog.wpOk_and
      (Prog.wpOk_of_keeps (IssuanceSteps.refreshRecord_aside env r))
      (Prog.wpOk_of_wp (CertificateEdits.refreshRecord_returns env o r s))))
    ?_))
  rintro r' t ⟨hrefreshed, haside, hsaved⟩
  have hid : r'.id = r.id := (congrArg Record.id hsaved :)
  refine Prog.wpOk_bind (Prog.wpOk_mono (Prog.wpOk_and
    (wpOk_unwritten (issueAfterSave_calm o env r'))
    (Prog.wpOk_of_keeps (issueAfterSave_records o env r'))) ?_)
  rintro _ u ⟨hcalm, hkept⟩
  refine Prog.wpOk_mono (Prog.wpOk_and (answer_id r') (Prog.wpOk_and
    (wpOk_unwritten (answer_calm o r'))
    (Prog.wpOk_of_keeps (answer_records o r')))) ?_
  rintro ans v ⟨hans, hcalm', hkept'⟩
  rw [hans, hid]
  refine ⟨?_, (hrefreshed.before hcalm).before hcalm'⟩
  exact ((hholds.of_aside haside).of_records hkept).of_records hkept'

/-- **What a successful request leaves**: its row under the id of the answer,
and the A record set if the record is kept in sync. -/
theorem upsertRecord_ok :
    (upsertRecord env input).wpOk o s fun ans t =>
      Holds input ans.id t.state ∧ Refreshed input s.state t.state := by
  refine Prog.wpOk_bind (Prog.wpOk_ofExcept fun encrypted _ => ?_)
  refine Prog.wpOk_bind (Prog.wpOk_mapError (Prog.wpOk_mono (Prog.wpOk_and
    (saveRecord_ok encrypted)
    (wpOk_unwritten (saveRecord_calm o env input encrypted))) ?_))
  rintro r t ⟨⟨hfound, hrow⟩, hsaved⟩
  refine Prog.wpOk_mono (afterSave_ok ⟨r, hfound, hrow⟩ hrow) ?_
  rintro ans u ⟨hholds, hrefreshed⟩
  exact ⟨hholds, hrefreshed.after hsaved⟩

end Save

/-! ## The TTL of a saved record -/

/-- The A record set of the request's record has the TTL that was asked for. -/
def HasTtl (input : RecordInput) (w : World) : Prop :=
  ∃ set, w.zones input.zoneId input.name = some set ∧
    set.ttl = input.ttl.toNat

/-- A record set to be created, with a TTL that is a signed 32-bit number, or
one that has the TTL already. -/
def TtlReaches (input : RecordInput) (w : World) : Prop :=
  match w.zones input.zoneId input.name with
  | none => input.ttl.toNat < 2 ^ 31
  | some set => set.ttl = input.ttl.toNat

theorem ttlAfter_asked_iff (input : RecordInput) (w : World) :
    ttlAfter (asked input) w = input.ttl.toNat ↔ TtlReaches input w := by
  have hset : rrset w (asked input) = w.zones input.zoneId input.name := rfl
  unfold ttlAfter TtlReaches
  rw [hset]
  cases w.zones input.zoneId input.name with
  | none => exact FixedWidth.signed_eq_iff
  | some set => exact Iff.rfl

/-- **Which saved TTLs reach Hetzner**: those of new record sets, if the
conversion keeps them, and those that are there already. -/
theorem saved_ttl_reaches_dns_iff (env : Env) (o : Oracle Call)
    (s : Sys World) (input : RecordInput)
    (hddns : recordDoesDDNS input.purpose.toInt8 = true) {ans : RecordProto}
    {t : Sys World} (h : upsertRecord env input o s = (.ok ans, t)) :
    HasTtl input t.state ↔ TtlReaches input s.state := by
  obtain ⟨-, hrefreshed⟩ := upsertRecord_ok ans t h
  obtain ⟨set, hset, httl⟩ := (hrefreshed.synced hddns).set
  rw [← ttlAfter_asked_iff, ← httl]
  constructor
  · rintro ⟨set', hset', httl'⟩
    obtain rfl := Option.some.inj (hset.symm.trans hset')
    exact httl'
  · exact fun heq => ⟨set, hset, heq⟩

/-- A DDNS record with a TTL of five minutes. -/
private def home : RecordInput :=
  ⟨0, "token", 1, "example.org", "home", 300, 1, false, []⟩

/-- The public address is stored, and the record sets are `zones`. -/
private def addressed (zones : Zones) : Sys World :=
  ⟨{ World.init zones with
    addresses := Table.empty.insert fun id =>
      ⟨id, some "203.0.113.1", none, true⟩ }, 0⟩

/-- No record sets. -/
private def empty : Sys World := addressed fun _ _ => none

theorem saved_ttl_reaches_dns_iff_created :
    HasTtl home (upsertRecord Env.sample home .quiet empty).2.state :=
  (saved_ttl_reaches_dns_iff Env.sample .quiet empty home (by decide)
    rfl).mpr (show home.ttl.toNat < 2 ^ 31 by decide)

/-- The record set of another address, with a TTL of one minute. -/
private def outdated : Sys World :=
  addressed fun _ _ => some ⟨60, ["192.0.2.1"]⟩

/-- The record set of another address is overwritten and keeps its TTL, though
another was asked for. -/
theorem changed_ttl_stays_behind :
    recordDoesDDNS home.purpose.toInt8 = true ∧
      ∃ ans t, upsertRecord Env.sample home .quiet outdated = (.ok ans, t) ∧
        t.state.zones 1 "home" = some ⟨60, ["203.0.113.1"]⟩ ∧
          ¬HasTtl home t.state := by
  have hzones : (upsertRecord Env.sample home .quiet outdated).2.state.zones 1
      "home" = some ⟨60, ["203.0.113.1"]⟩ := by decide +kernel
  refine ⟨by decide, _, _, rfl, hzones, ?_⟩
  rintro ⟨set, hset, httl⟩
  obtain rfl := Option.some.inj (hzones.symm.trans hset)
  revert httl
  decide

/-! ## Lists of records -/

/-- What a list shows of a record is what the request asked for. -/
structure AsAsked (input : RecordInput) (p : RecordProto) : Prop where
  zoneId : p.zoneId = input.zoneId
  domain : p.domain = input.domain
  name : p.name = input.name
  ttl : p.ttl = input.ttl
  purpose : p.purpose = input.purpose
  includeWildcard : p.includeWildcard = input.includeWildcard
  acmeEmail : p.acmeEmail = input.acmeEmail

/-- Every list of records that is answered shows the record `id` as it was
asked for, and a list of all records shows it. -/
def RecordListed (input : RecordInput) (id : Int) (w : World) : Prop :=
  ∀ env like search o clock,
    (getRecords env like search).wpOk o ⟨w, clock⟩ fun ps _ =>
      (search = [] → ∃ p ∈ ps, p.id = id) ∧
        ∀ p ∈ ps, p.id = id → AsAsked input p.toRecordProto

/-- The TTLs that a save handed over are the one that was asked for. -/
def TtlHanded (input : RecordInput) (w w' : World) : Prop :=
  ∃ ttls, ttlsHanded w' = ttlsHanded w ++ ttls ∧
    ∀ ttl ∈ ttls, ttl = input.ttl.toNat

/-- A list of all records shows the row `id`, and no list shows another one
under that id. -/
theorem getRecords_row (env : Env) (like : GoString → GoString → Bool)
    (search : GoString) {o : Oracle Call} {s : Sys World} {r : Record}
    (hfound : s.state.records.find? r.id = some r) :
    (getRecords env like search).wpOk o s fun ps _ =>
      (search = [] → ∃ p ∈ ps, p.id = r.id) ∧ ∀ p ∈ ps, p.id = r.id →
        ∃ address, p.toRecordProto = Record.toProto r address := by
  refine Prog.wpOk_bind (Prog.wpOk_mapError (Prog.wpOk_query ?_))
  intro records hrecords
  obtain rfl := Except.ok.inj hrecords
  refine Prog.wpOk_bind_any fun addresses t => ?_
  refine Prog.wpOk_bind_any fun certificates u => Prog.wpOk_pure ⟨?_, ?_⟩
  · rintro rfl
    have hmem := Table.find?_mem hfound
    exact ⟨listedRecord addresses certificates r,
      List.mem_map_of_mem (by simpa using hmem), rfl⟩
  · intro p hp hpid
    obtain ⟨r', hr', rfl⟩ := List.mem_map.mp hp
    have hrow : r' ∈ s.state.records.rows := by
      simp only [List.mem_insertionSort, List.mem_filter] at hr'
      exact hr'.1
    have hsame : s.state.records.find? r.id = some r' :=
      hpid ▸ Table.find?_of_mem hrow
    obtain rfl := Option.some.inj (hfound.symm.trans hsame)
    exact ⟨_, rfl⟩

/-- The row of a request is shown as it was asked for, if the conversion of
the purpose keeps it. -/
theorem asAsked_iff {input : RecordInput} {r : Record} (h : RowOf input r)
    (address : Option Address) :
    AsAsked input (Record.toProto r address) ↔
      -128 ≤ input.purpose.toInt ∧ input.purpose.toInt < 128 := by
  obtain ⟨token, hr⟩ := h
  rw [hr, ← FixedWidth.widen_narrow8_eq_iff]
  constructor
  · exact AsAsked.purpose
  · exact fun hpurpose => ⟨rfl, rfl, rfl, UInt32.toUInt32_toInt32 _, hpurpose,
      rfl, string_nullString _⟩

/-- **A saved record is listed as it was asked for** when its purpose fits in
eight bits. -/
theorem recordListed_iff {input : RecordInput} {id : Int} {w : World}
    (h : Holds input id w) :
    RecordListed input id w ↔
      -128 ≤ input.purpose.toInt ∧ input.purpose.toInt < 128 := by
  obtain ⟨r, hfound, hrow⟩ := h
  obtain rfl : r.id = id := Table.find?_key hfound
  constructor
  · intro hlisted
    obtain ⟨ps, t, hrun⟩ : ∃ ps t, getRecords Env.sample (fun _ _ => true) []
        .quiet ⟨w, 0⟩ = (.ok ps, t) := ⟨_, _, rfl⟩
    obtain ⟨hshown, hasked⟩ := hlisted _ _ _ _ _ ps t hrun
    obtain ⟨p, hp, hpid⟩ := hshown rfl
    obtain ⟨-, hrows⟩ := getRecords_row _ _ _ hfound ps t hrun
    obtain ⟨address, haddress⟩ := hrows p hp hpid
    exact (asAsked_iff hrow address).mp (haddress ▸ hasked p hp hpid)
  · intro hrange env like search o clock
    refine Prog.wpOk_mono (getRecords_row (s := ⟨w, clock⟩) env like search
      hfound) ?_
    rintro ps t ⟨hshown, hrows⟩
    refine ⟨hshown, fun p hp hpid => ?_⟩
    obtain ⟨address, haddress⟩ := hrows p hp hpid
    rw [haddress]
    exact (asAsked_iff hrow address).mpr hrange

/-- What a save has handed over. -/
private theorem ttlHanded_append {input : RecordInput} {w w' : World}
    {ttls : List Int} (h : ttlsHanded w' = ttlsHanded w ++ ttls) :
    TtlHanded input w w' ↔ ∀ ttl ∈ ttls, ttl = input.ttl.toNat := by
  constructor
  · rintro ⟨ttls', httls', hall⟩
    obtain rfl := List.append_cancel_left (h.symm.trans httls')
    exact hall
  · exact fun hall => ⟨ttls, h, hall⟩

/-- **The TTL is handed over as it was asked for** unless a new record set
needs a TTL that the conversion changes. -/
theorem ttlHanded_iff {input : RecordInput} {w w' : World}
    (h : Refreshed input w w') :
    TtlHanded input w w' ↔ (recordDoesDDNS input.purpose.toInt8 = true →
      w.zones input.zoneId input.name = none → input.ttl.toNat < 2 ^ 31) := by
  by_cases hddns : recordDoesDDNS input.purpose.toInt8 = true
  · rw [ttlHanded_append (h.synced hddns).ttls, newTtls]
    have hset : rrset w (asked input) = w.zones input.zoneId input.name := rfl
    rw [hset, ← FixedWidth.signed_eq_iff]
    by_cases hnone : w.zones input.zoneId input.name = none
    · simp [hnone, hddns, asked, UpsertFailure.storedRow, RecordInput.params]
    · simp [hnone]
  · have hother := h.other (eq_false_of_ne_true hddns)
    rw [ttlHanded_append (hother.ttls.trans (List.append_nil _).symm)]
    simp [hddns]

/-! ## Lists of tasks -/

/-- `ListTasks`. -/
def listTasks : Handler (List Task) :=
  .query .listTasks .driver fun w => .ok w.tasks.rows.reverse

/-- `GetTasks`. -/
def getTasks : Handler (List TaskProto) := do
  let stored ← listTasks.mapError
    (.because "failed to fetch tasks from database")
  pure (stored.map taskToProto)

/-- What a list shows of a task is what the request asked for. -/
structure TaskAsAsked (input : TaskInput) (p : TaskProto) : Prop where
  triggerOn : p.triggerOn = input.triggerOn
  url : p.url = input.url
  body : p.body = input.body
  enabled : p.enabled = input.enabled
  includeCertificate : p.includeCertificate = input.includeCertificate

/-- Every list of tasks that is answered shows the task `id`, as it was asked
for. -/
def TaskListed (input : TaskInput) (id : Int) (w : World) : Prop :=
  ∀ o clock, getTasks.wpOk o ⟨w, clock⟩ fun ps _ =>
    (∃ p ∈ ps, p.id = id) ∧ ∀ p ∈ ps, p.id = id → TaskAsAsked input p

/-- A row with the columns of the request. -/
def TaskRowOf (lib : Library) (input : TaskInput) (t : Task) : Prop :=
  ∃ headers old, t = (input.params lib headers).apply old

section Tasks

variable {env : Env} {lib : Library} {o : Oracle Call} {s : Sys World}
  {input : TaskInput}

theorem storeTaskRow_ok (headers : NullString) :
    (storeTaskRow lib input headers).wpOk o s fun id u =>
      ∀ t, u.state.tasks.find? id = some t → TaskRowOf lib input t := by
  unfold storeTaskRow
  split
  · refine Prog.wpOk_mapError (Prog.wpOk_call fun id hid t ht => ?_)
    split at hid
    · cases hid
    split at hid
    · cases hid
    obtain rfl := Except.ok.inj hid
    rw [if_neg ‹_›, if_neg ‹_›] at ht
    obtain rfl := Option.some.inj ((Table.find?_insert_self _ _ _).symm.trans ht)
    exact ⟨headers, Task.blank s.state.tasks.next, rfl⟩
  · refine Prog.wpOk_bind (Prog.wpOk_mapError (Prog.wpOk_call fun u hu => ?_))
    refine Prog.wpOk_pure fun t ht => ?_
    by_cases hmissing : (s.state.tasks.find? input.id).isNone = true
    · rw [if_pos hmissing] at ht
      rw [ht] at hmissing
      cases hmissing
    rw [if_neg hmissing] at hu ht
    split at hu
    · cases hu
    split at hu
    · cases hu
    rw [if_neg ‹_›, if_neg ‹_›] at ht
    obtain ⟨row, hrow, rfl⟩ := Option.map_eq_some_iff.mp
      ((Table.find?_updateWhere s.state.tasks _ (input.params lib headers).apply
        (fun _ => rfl) _).symm.trans ht)
    have hkey : row.id = input.id := Table.find?_key hrow
    exact ⟨headers, row, by simp [hkey]⟩

/-- **What a successful request leaves**: its row under the id of the
answer. -/
theorem upsertTask_ok :
    (upsertTask env lib input).wpOk o s fun ans u =>
      ∃ t, u.state.tasks.find? ans.id = some t ∧ TaskRowOf lib input t := by
  refine Prog.wpOk_bind_any fun _ s' => ?_
  refine Prog.wpOk_bind (Prog.wpOk_mapError ?_)
  refine Prog.wpOk_bind_any fun headers s'' => ?_
  refine Prog.wpOk_bind (Prog.wpOk_mono (storeTaskRow_ok headers) ?_)
  intro id u hrow
  refine Prog.wpOk_query fun t ht => Prog.wpOk_pure ?_
  cases hfound : u.state.tasks.find? id with
  | none =>
      rw [hfound] at ht
      cases ht
  | some t' =>
      rw [hfound] at ht
      obtain rfl := Except.ok.inj ht
      obtain rfl : t'.id = id := Table.find?_key hfound
      exact ⟨t', hfound, hrow t' hfound⟩

/-- The row of a request is shown as it was asked for, if the conversion of
the trigger keeps it. -/
theorem taskAsAsked_iff {t : Task} (h : TaskRowOf lib input t) :
    TaskAsAsked input (taskToProto t) ↔
      -128 ≤ input.triggerOn.toInt ∧ input.triggerOn.toInt < 128 := by
  obtain ⟨headers, old, rfl⟩ := h
  rw [← FixedWidth.widen_narrow8_eq_iff]
  constructor
  · exact TaskAsAsked.triggerOn
  · exact fun htrigger => ⟨htrigger, rfl, string_nullString _, rfl, rfl⟩

/-- A list shows each row once, under its id. -/
theorem getTasks_row {t : Task} (hfound : s.state.tasks.find? t.id = some t) :
    getTasks.wpOk o s fun ps _ =>
      (∃ p ∈ ps, p.id = t.id) ∧ ∀ p ∈ ps, p.id = t.id → p = taskToProto t := by
  refine Prog.wpOk_bind (Prog.wpOk_mapError (Prog.wpOk_query ?_))
  intro stored hstored
  obtain rfl := Except.ok.inj hstored
  refine Prog.wpOk_pure ⟨⟨taskToProto t, ?_, rfl⟩, ?_⟩
  · exact List.mem_map_of_mem (List.mem_reverse.mpr (Table.find?_mem hfound))
  · intro p hp hpid
    obtain ⟨t', ht', rfl⟩ := List.mem_map.mp hp
    have hsame : s.state.tasks.find? t.id = some t' :=
      hpid ▸ Table.find?_of_mem (List.mem_reverse.mp ht')
    rw [Option.some.inj (hfound.symm.trans hsame)]

/-- **A saved task is listed as it was asked for** when its trigger fits in
eight bits. -/
theorem taskListed_iff {id : Int} {w : World} {t : Task}
    (hfound : w.tasks.find? id = some t) (hrow : TaskRowOf lib input t) :
    TaskListed input id w ↔
      -128 ≤ input.triggerOn.toInt ∧ input.triggerOn.toInt < 128 := by
  obtain rfl : t.id = id := Table.find?_key hfound
  constructor
  · intro hlisted
    obtain ⟨ps, u, hrun⟩ : ∃ ps u, getTasks .quiet ⟨w, 0⟩ = (.ok ps, u) :=
      ⟨_, _, rfl⟩
    obtain ⟨⟨p, hp, hpid⟩, hasked⟩ := hlisted _ _ ps u hrun
    obtain ⟨-, hrows⟩ := getTasks_row hfound ps u hrun
    exact (taskAsAsked_iff hrow).mp (hrows p hp hpid ▸ hasked p hp hpid)
  · intro hrange o clock
    refine Prog.wpOk_mono (getTasks_row (s := ⟨w, clock⟩) hfound) ?_
    rintro ps u ⟨hshown, hrows⟩
    refine ⟨hshown, fun p hp hpid => ?_⟩
    rw [hrows p hp hpid]
    exact (taskAsAsked_iff hrow).mpr hrange

end Tasks

/-! ## Reading back what was saved -/

/-- The record and its TTL arrive as they were asked for. -/
def RecordReadsBack (input : RecordInput) (ans : RecordProto)
    (w w' : World) : Prop :=
  RecordListed input ans.id w' ∧ TtlHanded input w w'

/-- The purpose fits in eight bits, and the TTL in 31 where it is the TTL of a
new record set. -/
def RecordFits (input : RecordInput) (w : World) : Prop :=
  (-128 ≤ input.purpose.toInt ∧ input.purpose.toInt < 128) ∧
    (recordDoesDDNS input.purpose.toInt8 = true →
      w.zones input.zoneId input.name = none → input.ttl.toNat < 2 ^ 31)

/-- The trigger fits in eight bits. -/
def TaskFits (input : TaskInput) : Prop :=
  -128 ≤ input.triggerOn.toInt ∧ input.triggerOn.toInt < 128

instance (input : TaskInput) : Decidable (TaskFits input) :=
  inferInstanceAs (Decidable (_ ∧ _))

/-- A task of the record 1 that is run for issued certificates. -/
private def notify : TaskInput :=
  ⟨0, 1, "notify", 2, "POST", "https://example.org", [], "body", true, false,
    "pem"⟩

/-- A library for texts in lower case and tasks without headers. -/
private def plain : Library :=
  ⟨id, id, fun _ => .error (.external "unexpected end of JSON input")⟩

/-- The record 1 is stored. -/
private def settled : Sys World := (upsertRecord Env.sample home .quiet empty).2

end Hdns.Ports.SavedValues

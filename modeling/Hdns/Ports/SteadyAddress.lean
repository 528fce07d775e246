import Hdns.Ports.AddressRecorded

/-!
# A public address that stays

A pass runs every few minutes, and the address may stay the same for weeks.

Over any run of passes, saves and address refreshes that resolve one IPv4
address, whatever fails, the log of the run is `Fresh`: each write finds
another first value in the record set and leaves the address there.  Hence no
record set is written twice.

A sequence of passes changes neither the tasks nor the record set a record
names, and a task run follows the write it is owed for, so that no task runs
twice either.  A pass writes what it has resolved itself: for passes it does not
matter which address was current before.

## Main results

* `record_sets_are_written_once` — writes over a whole run.
* `tasks_run_once` — runs of tasks over a sequence of passes.
-/

namespace Hdns.Ports.SteadyAddress

open Hdns.Verified
open Hdns.Verified.GoString
open Hdns.Ports.Schema
open Hdns.Ports.UpdateAddress
open Hdns.Ports.Hetzner
open Hdns.Ports.Tasks
open Hdns.Ports.Service
open Hdns.Ports.Records
open Hdns.Ports.Operations
open Hdns.Ports.TaskFiring

/-! ## Logs of fresh writes -/

/-- The first value of a record set. -/
def firstAt (z : Zones) (zoneID : Int) (name : GoString) : Option GoString :=
  (z zoneID name).bind fun found => found.values.head?

theorem firstAt_set (z : Zones) (zoneID : Int) (name : GoString) (new : RRSet)
    (i : Int) (n : GoString) :
    firstAt (z.set zoneID name new) i n =
      if i = zoneID ∧ n = name then new.values.head? else firstAt z i n := by
  unfold firstAt Zones.set
  split
  · rfl
  · rfl

/-- The record set an event writes. -/
def setKey : Event → Option (Int × GoString)
  | .writeA r _ _ _ => some (r.zoneID, r.name)
  | _ => none

theorem setKey_of_not_isIP {e : Event} (h : ¬Event.isIP e) :
    setKey e = none := by
  cases e with
  | writeA r addr before after => exact absurd rfl h
  | _ => rfl

/-- Each write of the log is for a DDNS record, finds another first value than
the address, and leaves the address alone. -/
def Fresh (ip : GoString) : Zones → List Event → Prop
  | _, [] => True
  | z, .writeA r _ _ after :: es =>
      (recordDoesDDNS r.purpose = true ∧
        firstAt z r.zoneID r.name ≠ some ip ∧ after.values = [ip]) ∧
        Fresh ip (z.set r.zoneID r.name after) es
  | z, _ :: es => Fresh ip z es

section Fresh

variable {ip : GoString}

theorem fresh_append {es' : List Event} {z' : Zones} (h' : Fresh ip z' es') :
    ∀ (es : List Event) (z : Zones), Replays z es z' → Fresh ip z es →
      Fresh ip z (es ++ es') := by
  intro es
  induction es with
  | nil =>
      intro z hz _
      obtain rfl : z' = z := hz
      exact h'
  | cons e es ih =>
      intro z hz h
      cases e with
      | writeA r addr before after => exact ⟨h.1, ih _ hz.2 h.2⟩
      | runTask id event => exact ih z hz h
      | startIssuance record => exact ih z hz h
      | sendReport report => exact ih z hz h

theorem fresh_of_none {z : Zones} :
    ∀ es : List Event, (∀ e ∈ es, setKey e = none) → Fresh ip z es := by
  intro es
  induction es with
  | nil => exact fun _ => trivial
  | cons e es ih =>
      intro h
      have hrest := ih fun e he => h e (List.mem_cons_of_mem _ he)
      cases e with
      | writeA r addr before after => exact nomatch h _ List.mem_cons_self
      | runTask id event => exact hrest
      | startIssuance record => exact hrest
      | sendReport report => exact hrest

/-- A record set that holds the address is not written, so that none is
written twice. -/
theorem fresh_keys :
    ∀ (es : List Event) (z : Zones), Fresh ip z es →
      (es.filterMap setKey).Nodup ∧
        ∀ k ∈ es.filterMap setKey, firstAt z k.1 k.2 ≠ some ip := by
  intro es
  induction es with
  | nil => exact fun z _ => ⟨List.nodup_nil, by simp⟩
  | cons e es ih =>
      intro z h
      cases e with
      | writeA r addr before after =>
          obtain ⟨⟨-, hother, hafter⟩, hrest⟩ := h
          obtain ⟨hnodup, hkeys⟩ := ih _ hrest
          have hnew : ∀ k ∈ es.filterMap setKey,
              ¬(k.1 = r.zoneID ∧ k.2 = r.name) := by
            intro k hk hsame
            refine hkeys k hk ?_
            rw [firstAt_set, if_pos hsame, hafter]
            rfl
          have hcons : (Event.writeA r addr before after :: es).filterMap
              setKey = (r.zoneID, r.name) :: es.filterMap setKey := rfl
          rw [hcons]
          refine ⟨List.nodup_cons.mpr ⟨fun hmem => hnew _ hmem ⟨rfl, rfl⟩,
            hnodup⟩, ?_⟩
          intro k hk
          rcases List.mem_cons.mp hk with rfl | hk
          · exact hother
          · have hfirst := hkeys k hk
            rwa [firstAt_set, if_neg (hnew k hk)] at hfirst
      | runTask id event => exact ih z h
      | startIssuance record => exact ih z h
      | sendReport report => exact ih z h

/-- What a write of the log says of itself. -/
theorem fresh_write {r : Record} {addr : Address} {before : Option RRSet}
    {after : RRSet} {z' : Zones} :
    ∀ (es : List Event) (z : Zones), Replays z es z' → Fresh ip z es →
      .writeA r addr before after ∈ es →
        recordDoesDDNS r.purpose = true ∧
          (before.bind fun found => found.values.head?) ≠ some ip ∧
            after.values = [ip] := by
  intro es
  induction es with
  | nil => intro z _ _ hmem; exact absurd hmem List.not_mem_nil
  | cons e es ih =>
      intro z hz h hmem
      rcases List.mem_cons.mp hmem with rfl | htail
      · obtain ⟨rfl, -⟩ := hz
        exact h.1
      · cases e with
        | writeA r' addr' before' after' => exact ih _ hz.2 h.2 htail
        | runTask id event => exact ih z hz h htail
        | startIssuance record => exact ih z hz h htail
        | sendReport report => exact ih z hz h htail

end Fresh

/-! ## Steps -/

/-- The log grew by fresh writes that account for the zones. -/
def Wrote (ip : GoString) (w w' : World) : Prop :=
  ∃ es, w'.events = w.events ++ es ∧ Replays w.zones es w'.zones ∧
    Fresh ip w.zones es

/-- The same, beside the addresses. -/
structure Renews (ip : GoString) (w w' : World) : Prop where
  addresses : w'.addresses = w.addresses
  wrote : Wrote ip w w'

section Steps

variable {ip : GoString} {w w' : World}

theorem Wrote.refl (ip : GoString) (w : World) : Wrote ip w w :=
  ⟨[], by simp, rfl, trivial⟩

theorem Wrote.trans (ip : GoString) (w₁ w₂ w₃ : World) (h : Wrote ip w₁ w₂)
    (h' : Wrote ip w₂ w₃) : Wrote ip w₁ w₃ := by
  obtain ⟨es, hes, hz, hfresh⟩ := h
  obtain ⟨es', hes', hz', hfresh'⟩ := h'
  exact ⟨es ++ es', by rw [hes', hes, List.append_assoc],
    replays_append hz' es _ hz, fresh_append hfresh' es _ hz hfresh⟩

theorem wrote_of_same (hevents : w'.events = w.events)
    (hzones : w'.zones = w.zones) : Wrote ip w w' :=
  ⟨[], by rw [hevents, List.append_nil], hzones, trivial⟩

/-- The address update writes no record set. -/
theorem wrote_of_saved {ipv4 ipv6 : GoString} {res : Except GoError Address}
    (h : Saved ipv4 ipv6 w res w') : Wrote ip w w' :=
  wrote_of_same (by rw [h.frame]) (by rw [h.frame])

theorem Renews.refl (ip : GoString) (w : World) : Renews ip w w :=
  ⟨rfl, Wrote.refl ip w⟩

theorem Renews.trans (ip : GoString) (w₁ w₂ w₃ : World) (h : Renews ip w₁ w₂)
    (h' : Renews ip w₂ w₃) : Renews ip w₁ w₃ :=
  ⟨h'.addresses.trans h.addresses, Wrote.trans ip _ _ _ h.wrote h'.wrote⟩

theorem renews_of_calm (w w' : World) (h : Calm w w') : Renews ip w w' := by
  obtain ⟨es, hes, hcalm⟩ := h.events
  exact ⟨h.addresses, es, hes, h.zones ▸ replays_of_calm es hcalm,
    fresh_of_none es fun e he => setKey_of_not_isIP (hcalm e he)⟩

theorem replays_of_none {z : Zones} :
    ∀ es : List Event, (∀ e ∈ es, setKey e = none) → Replays z es z := by
  intro es
  induction es with
  | nil => exact fun _ => rfl
  | cons e es ih =>
      intro h
      have hrest := ih fun e he => h e (List.mem_cons_of_mem _ he)
      cases e with
      | writeA r addr before after => exact nomatch h _ List.mem_cons_self
      | runTask id event => exact hrest
      | startIssuance record => exact hrest
      | sendReport report => exact hrest

theorem renews_of_runs (w w' : World) (h : RunsTasks w w') :
    Renews ip w w' := by
  obtain ⟨es, hes, hruns⟩ := h.events
  have hnone : ∀ e ∈ es, setKey e = none := by
    intro e he
    obtain ⟨id, event, rfl⟩ := hruns e he
    rfl
  have hzones : w'.zones = w.zones := by rw [h.frame]
  exact ⟨by rw [h.frame], es, hes, hzones ▸ replays_of_none es hnone,
    fresh_of_none es hnone⟩

/-- The record set began with another value and holds the address now. -/
def Rewrites (r : Record) (addr : Address) (w w' : World) : Prop :=
  ∃ ip after, addr.ipv4 = some ip ∧
    firstAt w.zones r.zoneID r.name ≠ some ip ∧ after.values = [ip] ∧
      Appends [.writeA r addr (rrset w r) after] w w'

/-- The log accounts for the zones, so what was appended tells them. -/
theorem renews_of_appends_nil (h : Appends [] w w') (hlogs : Logs w w') :
    Renews ip w w' := by
  obtain ⟨es, hes, hz⟩ := hlogs
  obtain rfl : es = [] := List.append_cancel_left (hes.symm.trans h.events)
  exact ⟨h.addresses, [], hes, hz, trivial⟩

theorem renews_of_rewrites {r : Record} {addr : Address}
    (hddns : recordDoesDDNS r.purpose = true) (hip : addr.ipv4.string = ip)
    (h : Rewrites r addr w w') (hlogs : Logs w w') : Renews ip w w' := by
  obtain ⟨x, after, hx, hother, hafter, happends⟩ := h
  obtain rfl : x = ip := by rw [← hip, hx]; rfl
  obtain ⟨es, hes, hz⟩ := hlogs
  obtain rfl : es = [.writeA r addr (rrset w r) after] :=
    List.append_cancel_left (hes.symm.trans happends.events)
  exact ⟨happends.addresses, _, hes, hz, ⟨hddns, hother, hafter⟩, trivial⟩

end Steps

/-! ## One record -/

section Record

variable (env : Env) (r : Record) (addr : Address) (o : Oracle Call)

/-- `UpdateRecord` where the record set begins with another value. -/
theorem updateRecord_outcome {s : Sys World} {ip : GoString}
    (hip : addr.ipv4 = some ip)
    (hother : firstAt s.state.zones r.zoneID r.name ≠ some ip) :
    (updateRecord env r addr).wp o s fun res t =>
      (Appends [] s.state t.state ∧ ∃ err, res = .error err) ∨
        Rewrites r addr s.state t.state := by
  refine Prog.wp_mono (updateRecord_appends env r addr o s) ?_
  rintro res t ⟨hout, -⟩
  rcases hout with h | ⟨after, hafter, h, -⟩
  · exact .inl h
  · refine .inr ⟨ip, after, hip, hother, ?_, h⟩
    rw [hafter, hip]
    rfl

theorem updateRecord_logs : Prog.Keeps o Logs (updateRecord env r addr) :=
  updateRecord_tracks logs_tracks env fun _ _ _ => ⟨[_], rfl, rfl, rfl⟩

/-- The status of a record is "updated" only after a write, which finds
another first value. -/
theorem refreshRecordStatus_outcome (s : Sys World) :
    (refreshRecordStatus env r addr).wp o s fun res t => ∃ status,
      res = .ok status ∧
        ((status.result ≠ resultUpdated ∧ Appends [] s.state t.state) ∨
          Rewrites r addr s.state t.state) := by
  have hfailed : resultFailed ≠ resultUpdated := by decide
  have hunchanged : resultUnchanged ≠ resultUpdated := by decide
  unfold refreshRecordStatus
  cases hip : addr.ipv4 with
  | none => exact ⟨_, rfl, .inl ⟨hfailed, .nil _⟩⟩
  | some ip =>
      show Prog.wp _ o s _
      rw [Prog.wp_bind, Prog.wp_attempt]
      refine Prog.wp_mono (fetchRecord_spec env r o s) ?_
      rintro (err | found) t ⟨ht, hfound⟩
      · exact ⟨_, rfl, .inl ⟨hfailed, ht ▸ .nil _⟩⟩
      have hrrset := hfound found rfl
      rw [← ht] at hrrset ⊢
      dsimp only
      split
      · exact ⟨_, rfl, .inl ⟨hunchanged, .nil _⟩⟩
      next hother =>
      rw [hrrset] at hother
      rw [Prog.wp_bind, Prog.wp_attempt]
      refine Prog.wp_mono (updateRecord_outcome env r addr o hip hother) ?_
      rintro res u (⟨h, err, rfl⟩ | h)
      · exact ⟨_, rfl, .inl ⟨hfailed, h⟩⟩
      · cases res with
        | error err => exact ⟨_, rfl, .inr h⟩
        | ok _ => exact ⟨_, rfl, .inr h⟩

theorem refreshRecordStatus_logs :
    Prog.Keeps o Logs (refreshRecordStatus env r addr) :=
  refreshRecordStatus_tracks logs_tracks env
    fun _ _ _ _ _ => ⟨[_], rfl, rfl, rfl⟩

variable {ip : GoString} (hip : addr.ipv4.string = ip)
include hip

theorem refreshRecordStatus_renews (hddns : recordDoesDDNS r.purpose = true) :
    Prog.Keeps o (Renews ip) (refreshRecordStatus env r addr) := by
  intro s
  refine Prog.wp_mono (Prog.wp_and (refreshRecordStatus_outcome env r addr o s)
    (refreshRecordStatus_logs env r addr o s)) ?_
  rintro _ t ⟨⟨status, rfl, ⟨-, h⟩ | h⟩, hlogs⟩
  · exact renews_of_appends_nil h hlogs
  · exact renews_of_rewrites hddns hip h hlogs

theorem updateRecord_renews (hddns : recordDoesDDNS r.purpose = true)
    {s : Sys World} {x : GoString} (hx : addr.ipv4 = some x)
    (hother : firstAt s.state.zones r.zoneID r.name ≠ some x) :
    (updateRecord env r addr).wp o s fun _ t => Renews ip s.state t.state := by
  refine Prog.wp_mono (Prog.wp_and (updateRecord_outcome env r addr o hx hother)
    (updateRecord_logs env r addr o s)) ?_
  rintro res t ⟨⟨h, -⟩ | h, hlogs⟩
  · exact renews_of_appends_nil h hlogs
  · exact renews_of_rewrites hddns hip h hlogs

theorem refreshOne_renews (report : Report) :
    Prog.Keeps o (Renews ip) (refreshOne env addr report r) :=
  refreshOne_keeps (Renews.refl ip) (Renews.trans ip) env
    (refreshRecordStatus_renews env r addr o hip)
    ((fireTasks_runs o env _ _ _).mono renews_of_runs) report

/-- The end of `dns.RefreshRecord`. -/
theorem applyCurrent_renews (hddns : recordDoesDDNS r.purpose = true)
    {x : GoString} (hx : addr.ipv4 = some x) :
    Prog.Keeps o (Renews ip) (applyCurrent env r addr x) := by
  intro s
  unfold applyCurrent
  rw [Prog.wp_bind]
  refine Prog.wp_mono (fetchRecord_spec env r o s) ?_
  rintro (err | found) t ⟨ht, hfound⟩
  · exact ht ▸ Renews.refl ip _
  have hrrset := hfound found rfl
  rw [← ht] at hrrset ⊢
  show Prog.wp _ o t _
  split
  · exact Renews.refl ip _
  next hother =>
  rw [hrrset] at hother
  rw [Prog.wp_bind]
  refine Prog.wp_mono (updateRecord_renews env r addr o hip hddns hx hother) ?_
  rintro (err | r') u h
  · exact h
  · show Prog.wp _ o u _
    rw [Prog.wp_bind]
    refine Prog.wp_mono (fireTasks_runs o env r'.id triggerIP none u) ?_
    rintro (err | _) v hv
    · exact Renews.trans ip _ _ _ h (renews_of_runs _ _ hv)
    · exact Renews.trans ip _ _ _ h (renews_of_runs _ _ hv)

end Record

/-! ## The operations -/

/-- Every current row holds the address. -/
def CurrentIs (ip : GoString) (t : Table Address) : Prop :=
  ∀ a ∈ t.rows, a.current = true → a.ipv4.string = ip

/-- What is current stays the address. -/
def StaysCurrent (ip : GoString) (w w' : World) : Prop :=
  CurrentIs ip w.addresses → CurrentIs ip w'.addresses

section Operations

variable {ip : GoString} (env : Env) (o : Oracle Call)

theorem StaysCurrent.refl (ip : GoString) (w : World) : StaysCurrent ip w w :=
  id

theorem StaysCurrent.trans (ip : GoString) (w₁ w₂ w₃ : World)
    (h : StaysCurrent ip w₁ w₂) (h' : StaysCurrent ip w₂ w₃) :
    StaysCurrent ip w₁ w₃ := h' ∘ h

theorem currentIs_resetCurrent (t : Table Address) :
    CurrentIs ip (resetCurrent t) := by
  intro a ha hcurrent
  rw [noneCurrent_resetCurrent t a ha] at hcurrent
  cases hcurrent

theorem CurrentIs.insertAddress {t : Table Address} (h : CurrentIs ip t)
    (collate : GoString → GoString) (ipv6 : NullString) :
    CurrentIs ip (insertAddress collate (nullString ip) ipv6 true t).2 := by
  rcases insertAddress_cases collate (nullString ip) ipv6 true t
    with ⟨err, hins⟩ | ⟨_, hins⟩ | ⟨_, hins⟩
  · rw [hins]; exact h
  · rw [hins]; exact h
  · rw [hins]
    intro a ha hcurrent
    rcases List.mem_append.mp ha with ha | ha
    · exact h a ha hcurrent
    · rw [List.mem_singleton.mp ha]
      exact string_nullString ip

theorem replaceAddress_current (ipv6 : GoString) :
    Prog.Keeps o (StaysCurrent ip) (replaceAddress env ip ipv6) := by
  refine .bind (StaysCurrent.trans ip)
    (.mapError (.call (StaysCurrent.refl ip) fun w _ => ?_) _) fun _ => ?_
  · exact currentIs_resetCurrent w.addresses
  refine .bind (StaysCurrent.trans ip)
    (.mapError (.call (StaysCurrent.refl ip) fun w h => ?_) _) fun _ => ?_
  · exact h.insertAddress env.collate (nullString ipv6)
  exact .mapError (.query (StaysCurrent.refl ip)) _

/-- An address update that resolves the same IPv4 leaves only rows with it
current, wherever it is interrupted. -/
theorem updateAddress_current (hip : env.consensus4.1 = ip) :
    Prog.Keeps o (StaysCurrent ip) (updateAddress env) := by
  unfold updateAddress
  cases hres : resolve env.consensus4 env.consensus6 with
  | error err => exact .throw (StaysCurrent.refl ip) _
  | ok pair =>
      obtain ⟨rfl, -⟩ := resolve_ok hres
      refine .mapError (.bind (StaysCurrent.trans ip) ?_ fun addr =>
        .ite (fun _ => .pure (StaysCurrent.refl ip) _) fun _ => ?_) _
      · refine .bind (StaysCurrent.trans ip)
          (.attempt (.query (StaysCurrent.refl ip))) fun read => ?_
        split
        · exact .pure (StaysCurrent.refl ip) _
        · exact .pure (StaysCurrent.refl ip) _
        · exact .throw (StaysCurrent.refl ip) _
      · exact hip ▸ replaceAddress_current env o env.consensus6.1

theorem refreshAll_renews {addr : Address} (hip : addr.ipv4.string = ip) :
    Prog.Keeps o (Renews ip) (refreshAll env addr) := by
  refine .bind (Renews.trans ip) (.attempt (.mapError
    (.query (Renews.refl ip)) _)) fun listed => ?_
  cases listed with
  | error err => exact (giveUp_calm o env _ _ _).mono renews_of_calm
  | ok records =>
      refine .bind (Renews.trans ip) (.foldlM (Renews.refl ip)
        (Renews.trans ip) (fun report r =>
          refreshOne_renews env r addr o hip report) _ _) fun report => ?_
      refine .bind (Renews.trans ip) (.foldlM (Renews.refl ip)
        (Renews.trans ip) (fun report r =>
          (certificateOne_calm o env report r).mono renews_of_calm) _ _)
        fun report => ?_
      exact (finishReport_calm o report).mono renews_of_calm

/-- What keeps the rows of addresses keeps what is current. -/
theorem Renews.stays {ip' : GoString} {w w' : World} (h : Renews ip' w w') :
    StaysCurrent ip w w' :=
  fun hcur => h.addresses ▸ hcur

/-- A pass writes the address it has resolved, whichever was current. -/
theorem refresh_wrote (hip : env.consensus4.1 = ip) (s : Sys World) :
    (refresh env).wp o s fun _ t => Wrote ip s.state t.state := by
  unfold refresh
  rw [Prog.wp_bind, Prog.wp_attempt]
  refine Prog.wp_mono (updateAddress_spec env o s) ?_
  rintro (err | addr) t hsaved
  · refine Prog.wp_mono (giveUp_calm o env _ _ _ t) fun _ u hcalm => ?_
    exact Wrote.trans ip _ _ _ (wrote_of_saved hsaved)
      (renews_of_calm _ _ hcalm).wrote
  · have haddr := (hsaved.stored addr rfl).2.1.trans hip
    refine Prog.wp_mono (refreshAll_renews env o haddr t) fun _ u hall => ?_
    exact Wrote.trans ip _ _ _ (wrote_of_saved hsaved) hall.wrote

theorem refresh_current (hip : env.consensus4.1 = ip) :
    Prog.Keeps o (StaysCurrent ip) (refresh env) := by
  refine .bind (StaysCurrent.trans ip)
    (.attempt (updateAddress_current env o hip)) fun saved => ?_
  cases saved with
  | error err =>
      refine (giveUp_calm o env _ _ _).mono fun w w' h => ?_
      have hrenews : Renews ip w w' := renews_of_calm w w' h
      exact hrenews.stays
  | ok addr =>
      exact (refreshAll_renews env o rfl).mono fun _ _ h => h.stays

theorem serverRefreshAddress_wrote (ip : GoString) (s : Sys World) :
    (Server.refreshAddress env).wp o s fun _ t => Wrote ip s.state t.state := by
  unfold Server.refreshAddress
  rw [Prog.wp_bind, Prog.wp_mapError]
  refine Prog.wp_mono (updateAddress_spec env o s) ?_
  rintro (err | addr) t hsaved
  · exact wrote_of_saved hsaved
  · exact wrote_of_saved hsaved

theorem serverRefreshAddress_current (hip : env.consensus4.1 = ip) :
    Prog.Keeps o (StaysCurrent ip) (Server.refreshAddress env) :=
  .bind (StaysCurrent.trans ip) (.mapError (updateAddress_current env o hip) _)
    fun _ => .pure (StaysCurrent.refl ip) _

/-- One operation of a run: what is current, and what it wrote. -/
structure Rests (ip : GoString) (w w' : World) : Prop where
  current : CurrentIs ip w'.addresses
  wrote : Wrote ip w w'

theorem Renews.rests {w w' : World} (h : Renews ip w w')
    (hcur : CurrentIs ip w.addresses) : Rests ip w w' :=
  ⟨h.addresses ▸ hcur, h.wrote⟩

theorem Rests.then {w₁ w₂ w₃ : World} (h : Rests ip w₁ w₂)
    (h' : Rests ip w₂ w₃) : Rests ip w₁ w₃ :=
  ⟨h'.current, Wrote.trans ip _ _ _ h.wrote h'.wrote⟩

variable {s : Sys World} (hcur : CurrentIs ip s.state.addresses)
include hcur

theorem refresh_rests (hip : env.consensus4.1 = ip) :
    (refresh env).wp o s fun _ t => Rests ip s.state t.state :=
  Prog.wp_mono (Prog.wp_and (refresh_wrote env o hip s)
    (refresh_current env o hip s)) fun _ _ h => ⟨h.2 hcur, h.1⟩

theorem refreshRecord_renews (r : Record) :
    (refreshRecord env r).wp o s fun _ t => Renews ip s.state t.state := by
  unfold refreshRecord
  split
  · next hddns =>
    rw [Prog.wp_bind, Prog.wp_mapError]
    refine Prog.wp_mono (getCurrentAddress_spec o s) ?_
    rintro (err | addr) t ⟨ht, hread⟩
    · exact ht ▸ Renews.refl ip _
    have hfound := hread addr rfl
    have hip := hcur addr (currentAddress_mem hfound)
      (currentAddress_current hfound)
    rw [← ht]
    show Prog.wp _ o t _
    cases hx : addr.ipv4 with
    | none => exact Renews.refl ip _
    | some x => exact applyCurrent_renews env r addr o hip hddns hx t
  · exact Renews.refl ip _

theorem upsertRecord_rests (input : RecordInput) :
    (upsertRecord env input).wp o s fun _ t => Rests ip s.state t.state := by
  suffices h : (upsertRecord env input).wp o s fun _ t =>
      Renews ip s.state t.state from
    Prog.wp_mono h fun _ _ h => h.rests hcur
  unfold upsertRecord
  rw [Prog.wp_bind, Prog.wp_ofExcept]
  cases checkInput env input with
  | error err => exact Renews.refl ip _
  | ok encrypted =>
      show Prog.wp _ o s _
      rw [Prog.wp_bind, Prog.wp_mapError]
      refine Prog.wp_mono (saveRecord_calm o env input encrypted s) ?_
      rintro (err | record) t hcalm
      · exact renews_of_calm _ _ hcalm
      have hsaved : Renews ip s.state t.state := renews_of_calm _ _ hcalm
      have hcur' : CurrentIs ip t.state.addresses := hsaved.addresses ▸ hcur
      show Prog.wp _ o t _
      unfold afterSave
      rw [Prog.wp_bind, Prog.wp_mapError]
      refine Prog.wp_mono (refreshRecord_renews env o hcur' record) ?_
      rintro (err | record) u hrefresh
      · exact Renews.trans ip _ _ _ hsaved hrefresh
      have hrest : Prog.Keeps o (Renews ip) (do
          issueAfterSave env record
          answer record) :=
        .bind (Renews.trans ip)
          ((issueAfterSave_calm o env record).mono renews_of_calm) fun _ =>
            (answer_calm o record).mono renews_of_calm
      exact Prog.wp_mono (hrest u) fun _ _ h => Renews.trans ip _ _ _
        (Renews.trans ip _ _ _ hsaved hrefresh) h

theorem serverRefreshAddress_rests (hip : env.consensus4.1 = ip) :
    (Server.refreshAddress env).wp o s fun _ t => Rests ip s.state t.state :=
  Prog.wp_mono (Prog.wp_and (serverRefreshAddress_wrote env o ip s)
    (serverRefreshAddress_current env o hip s)) fun _ _ h => ⟨h.2 hcur, h.1⟩

end Operations

/-! ## Runs -/

/-- The operations of a run with one IPv4 address.  The API's refresh of a
record is none of them, because it writes without looking; and whatever else
happens to the tables leaves the zones alone. -/
def Steady (ip : GoString) (w : World) : Op → Prop
  | .refresh env _ => env.consensus4.1 = ip
  | .upsertRecord _ _ _ => True
  | .serverRefreshRecord _ _ _ => False
  | .serverRefreshAddress env _ => env.consensus4.1 = ip
  | .elsewhere c => c.zones = w.zones

theorem op_rests {ip : GoString} {w : World} {op : Op}
    (hcur : CurrentIs ip w.addresses) (h : Steady ip w op) :
    Rests ip w (op.apply w) := by
  cases op with
  | refresh env o => exact refresh_rests env o (s := ⟨w, 0⟩) hcur h
  | upsertRecord env o input =>
      exact upsertRecord_rests env o (s := ⟨w, 0⟩) hcur input
  | serverRefreshRecord env o id => exact h.elim
  | serverRefreshAddress env o =>
      exact serverRefreshAddress_rests env o (s := ⟨w, 0⟩) hcur h
  | elsewhere c => exact ⟨hcur, wrote_of_same rfl h⟩

/-- A whole run. -/
theorem run_rests {ip : GoString} {ops : List Op} {w w' : World}
    (hcur : CurrentIs ip w.addresses)
    (halong : operations.Along (Steady ip) w ops)
    (hrun : operations.run w ops = some w') : Rests ip w w' := by
  have hstep : ∀ s op s', Rests ip w s → Steady ip s op →
      operations.step s op = some s' → Rests ip w s' := by
    intro s op s' hs hop hstep
    obtain rfl := Option.some.inj hstep
    exact hs.then (op_rests hs.current hop)
  exact Machine.invariant_along hstep ops w w' ⟨hcur, Wrote.refl ip w⟩ halong
    hrun

/-- What a log of fresh writes says of its writes. -/
theorem Wrote.once {ip : GoString} {w w' : World} (h : Wrote ip w w') :
    ∃ es, w'.events = w.events ++ es ∧ Replays w.zones es w'.zones ∧
      (es.filterMap setKey).Nodup ∧
        ∀ r addr before after, .writeA r addr before after ∈ es →
          recordDoesDDNS r.purpose = true ∧
            (before.bind fun found => found.values.head?) ≠ some ip ∧
              after.values = [ip] := by
  obtain ⟨es, hes, hz, hfresh⟩ := h
  exact ⟨es, hes, hz, (fresh_keys es _ hfresh).1,
    fun r addr before after hmem => fresh_write es _ hz hfresh hmem⟩

/-- **Record sets are written once.**  In a run of passes, saves and address
refreshes that resolve the same IPv4 address, whatever fails and whatever is
edited in between, no record set is written twice; each write is for a DDNS
record, finds another first value in the record set and leaves the address
there alone. -/
theorem record_sets_are_written_once (ip : GoString) (ops : List Op)
    (w w' : World) (hcur : CurrentIs ip w.addresses)
    (halong : operations.Along (Steady ip) w ops)
    (hrun : operations.run w ops = some w') :
    ∃ es, w'.events = w.events ++ es ∧ Replays w.zones es w'.zones ∧
      (es.filterMap setKey).Nodup ∧
        ∀ r addr before after, .writeA r addr before after ∈ es →
          recordDoesDDNS r.purpose = true ∧
            (before.bind fun found => found.values.head?) ≠ some ip ∧
              after.values = [ip] :=
  (run_rests hcur halong hrun).wrote.once

private def shop : Record :=
  ⟨1, "token", 7, "example.org", "shop", 60, none, purposeDDNS, false, none⟩

private def shopHook : Task :=
  ⟨1, 1, "reload", triggerIP, "POST", "https://shop.example.org/hook", none,
    none, false, true, none, none, none, "pem"⟩

private def shopTables : Elsewhere where
  records := Table.empty.insert fun id => { shop with id := id }
  certificates := .empty
  tasks := Table.empty.insert fun id => { shopHook with id := id }
  taskRuns := .empty
  zones := fun _ _ => none
  pending := fun _ => false

private def untouched : World := World.init fun _ _ => none

private def dialled : Env :=
  { Env.sample with consensus4 := ("203.0.113.9", none) }

/-- The reply to every statement that stores an address is lost. -/
private def repliesLost : Oracle Call := fun _ c =>
  if c = .updateRecordAddress then .lostReply else .none

/-- Two passes, the first of which does not learn that it has succeeded. -/
private def twoPasses : List Op :=
  [.refresh dialled repliesLost, .refresh dialled .quiet]

theorem record_sets_are_written_once_retried :
    ∃ es, (Op.apply (.refresh dialled .quiet) (Op.apply
        (.refresh dialled repliesLost) (Op.apply (.elsewhere shopTables)
          untouched))).events = untouched.events ++ es ∧
      Replays untouched.zones es (Op.apply (.refresh dialled .quiet) (Op.apply
        (.refresh dialled repliesLost) (Op.apply (.elsewhere shopTables)
          untouched))).zones ∧
      (es.filterMap setKey).Nodup ∧
        ∀ r addr before after, .writeA r addr before after ∈ es →
          recordDoesDDNS r.purpose = true ∧
            (before.bind fun found => found.values.head?) ≠
              some (lit "203.0.113.9") ∧
              after.values = [lit "203.0.113.9"] :=
  record_sets_are_written_once "203.0.113.9"
    (.elsewhere shopTables :: twoPasses) untouched _
    (fun _ ha => absurd ha List.not_mem_nil)
    ⟨rfl, rfl, rfl, trivial⟩ rfl

/-! ## Runs of tasks

A sequence of passes changes neither the tasks nor the zone and name of a
record, so a task belongs to one record set. -/

/-- The task that an event runs for a change of address. -/
def ranIP : Event → Option Int
  | .runTask id event => if event = triggerIP then some id else none
  | _ => none

theorem ranIP_of_not_isIP {e : Event} (h : ¬Event.isIP e) : ranIP e = none := by
  cases e with
  | runTask id event =>
      refine if_neg fun hip => h ?_
      rw [hip]
      rfl
  | _ => rfl

theorem event_of_ranIP {e : Event} {id : Int} (h : ranIP e = some id) :
    e = .runTask id triggerIP := by
  cases e with
  | runTask id' event =>
      simp only [ranIP, Option.ite_none_right_eq_some, Option.some.injEq] at h
      rw [h.1, h.2]
  | _ => simp [ranIP] at h

/-- A log of writes for known records, each followed by all the runs it is owed
or by none. -/
inductive Paid (owed : Int → List Event) (known : Record → Prop) :
    List Event → Prop
  | nil : Paid owed known []
  | other (e : Event) (es : List Event) :
      ¬Event.isIP e → Paid owed known es → Paid owed known (e :: es)
  | unpaid (r : Record) (addr : Address) (before : Option RRSet)
      (after : RRSet) (es : List Event) :
      known r → Paid owed known es →
        Paid owed known (.writeA r addr before after :: es)
  | paid (r : Record) (addr : Address) (before : Option RRSet)
      (after : RRSet) (es : List Event) :
      known r → Paid owed known es →
        Paid owed known (.writeA r addr before after :: (owed r.id ++ es))

theorem Paid.append {owed : Int → List Event} {known : Record → Prop}
    {es es' : List Event} (h : Paid owed known es)
    (h' : Paid owed known es') : Paid owed known (es ++ es') := by
  induction h with
  | nil => exact h'
  | other e es he _ ih => exact .other e _ he ih
  | unpaid r addr before after es hr _ ih =>
      exact .unpaid r addr before after _ hr ih
  | paid r addr before after es hr _ ih =>
      rw [List.cons_append, List.append_assoc]
      exact .paid r addr before after _ hr ih

theorem paid_of_calm {owed : Int → List Event} {known : Record → Prop} :
    ∀ es : List Event, (∀ e ∈ es, ¬Event.isIP e) → Paid owed known es := by
  intro es
  induction es with
  | nil => exact fun _ => .nil
  | cons e es ih =>
      intro h
      exact .other e es (h e List.mem_cons_self)
        (ih fun e he => h e (List.mem_cons_of_mem _ he))

/-- Every run stands behind the write it is owed to. -/
theorem Paid.follows {owed : Int → List Event} {known : Record → Prop}
    {es : List Event} (h : Paid owed known es) :
    ∀ (pre post : List Event) (id : Int),
      es = pre ++ .runTask id triggerIP :: post →
        ∃ r, known r ∧ id ∈ (owed r.id).filterMap ranIP ∧
          (r.zoneID, r.name) ∈ pre.filterMap setKey := by
  -- a write of a shorter log is one of the longer log
  have hcons : ∀ (e : Event) (pre : List Event) (k : Int × GoString),
      k ∈ pre.filterMap setKey → k ∈ (e :: pre).filterMap setKey :=
    fun e pre _ hk => ((List.sublist_cons_self e pre).filterMap setKey).subset hk
  induction h with
  | nil => simp
  | other e es he _ ih =>
      intro pre post id hsplit
      cases pre with
      | nil =>
          obtain ⟨rfl, -⟩ := List.cons.inj hsplit
          exact absurd rfl he
      | cons e' pre =>
          obtain ⟨r, hr, howed, hkey⟩ := ih pre post id (List.cons.inj hsplit).2
          exact ⟨r, hr, howed, hcons e' pre _ hkey⟩
  | unpaid r addr before after es hr _ ih =>
      intro pre post id hsplit
      cases pre with
      | nil => simp at hsplit
      | cons e' pre =>
          obtain ⟨r', hr', howed, hkey⟩ :=
            ih pre post id (List.cons.inj hsplit).2
          exact ⟨r', hr', howed, hcons e' pre _ hkey⟩
  | paid r addr before after es hr _ ih =>
      intro pre post id hsplit
      cases pre with
      | nil => simp at hsplit
      | cons e' pre =>
          rw [List.cons_append, List.cons.injEq] at hsplit
          obtain ⟨rfl, hsplit⟩ := hsplit
          rcases List.append_eq_append_iff.mp hsplit with
            ⟨late, rfl, hlate⟩ | ⟨early, howed, hearly⟩
          · obtain ⟨r', hr', howed, hkey⟩ := ih late post id hlate
            refine ⟨r', hr', howed, hcons _ _ _ ?_⟩
            rw [List.filterMap_append]
            exact List.mem_append_right _ hkey
          · cases early with
            | nil =>
                obtain ⟨r', hr', howed', hkey⟩ := ih [] post id hearly.symm
                exact absurd hkey List.not_mem_nil
            | cons e early =>
                -- one of the runs that the write is owed
                obtain ⟨rfl, -⟩ := List.cons.inj hearly
                refine ⟨r, hr, ?_, List.mem_cons_self⟩
                rw [howed, List.filterMap_append]
                exact List.mem_append_right _ List.mem_cons_self

/-- Every run is owed to a write of the log. -/
theorem Paid.owed {owed : Int → List Event} {known : Record → Prop}
    {es : List Event} (h : Paid owed known es) {id : Int}
    (hid : id ∈ es.filterMap ranIP) :
    ∃ r, known r ∧ id ∈ (owed r.id).filterMap ranIP ∧
      (r.zoneID, r.name) ∈ es.filterMap setKey := by
  obtain ⟨e, he, hran⟩ := List.mem_filterMap.mp hid
  obtain ⟨pre, post, rfl⟩ := List.append_of_mem he
  obtain ⟨r, hr, howed, hkey⟩ :=
    h.follows pre post id (by rw [event_of_ranIP hran])
  refine ⟨r, hr, howed, ?_⟩
  rw [List.filterMap_append]
  exact List.mem_append_left _ hkey

/-- Where no record set is written twice, no task runs twice. -/
theorem Paid.runs_nodup {owed : Int → List Event} {known : Record → Prop}
    (hknown : ∀ r r', known r → known r' → r.id = r'.id →
      (r.zoneID, r.name) = (r'.zoneID, r'.name))
    (honce : ∀ id, ((owed id).filterMap ranIP).Nodup)
    (hapart : ∀ id id' t, t ∈ (owed id).filterMap ranIP →
      t ∈ (owed id').filterMap ranIP → id = id')
    {es : List Event} (h : Paid owed known es)
    (hkeys : (es.filterMap setKey).Nodup) : (es.filterMap ranIP).Nodup := by
  induction h with
  | nil => exact List.nodup_nil
  | other e es he _ ih =>
      rw [List.filterMap_cons_none (setKey_of_not_isIP he)] at hkeys
      rw [List.filterMap_cons_none (ranIP_of_not_isIP he)]
      exact ih hkeys
  | unpaid r addr before after es _ _ ih => exact ih (List.nodup_cons.mp hkeys).2
  | paid r addr before after es hr hes ih =>
      have hcons : ((Event.writeA r addr before after ::
          (owed r.id ++ es)).filterMap setKey) = (r.zoneID, r.name) ::
            ((owed r.id).filterMap setKey ++ es.filterMap setKey) := by
        rw [← List.filterMap_append]
        rfl
      rw [hcons] at hkeys
      obtain ⟨hnew, hrest⟩ := List.nodup_cons.mp hkeys
      have htail := ih (List.nodup_append.mp hrest).2.1
      have hsplit : ((Event.writeA r addr before after ::
          (owed r.id ++ es)).filterMap ranIP) =
            (owed r.id).filterMap ranIP ++ es.filterMap ranIP :=
        List.filterMap_append
      rw [hsplit]
      refine List.nodup_append.mpr ⟨honce r.id, htail, ?_⟩
      rintro t ht t' ht' rfl
      -- a later run of the task is owed to a write of the same record set
      obtain ⟨r', hr', howed, hkey⟩ := hes.owed ht'
      have hsame := hknown r r' hr hr' (hapart _ _ t ht howed)
      exact hnew (List.mem_append_right _ (hsame ▸ hkey))

/-! ### What the tables say -/

/-- The record set of a record. -/
def recordKey (r : Record) : Int × GoString := (r.zoneID, r.name)

/-- The record's row names the same record set. -/
def Known (w : World) (r : Record) : Prop :=
  w.records.column recordKey r.id = some (recordKey r)

/-- What a pass leaves: the record sets of the records, what is owed, and a log
that is paid for. -/
structure Pays (w w' : World) : Prop where
  keys : w'.records.column recordKey = w.records.column recordKey
  owed : owedBy w' = owedBy w
  log : ∃ es, w'.events = w.events ++ es ∧ Paid (owedBy w) (Known w) es

theorem Pays.refl (w : World) : Pays w w :=
  ⟨rfl, rfl, [], by simp, .nil⟩

theorem Pays.known {w w' : World} (h : Pays w w') : Known w' = Known w := by
  funext r
  rw [Known, h.keys]
  rfl

theorem Pays.trans (w₁ w₂ w₃ : World) (h : Pays w₁ w₂) (h' : Pays w₂ w₃) :
    Pays w₁ w₃ := by
  obtain ⟨es, hes, hpaid⟩ := h.log
  obtain ⟨es', hes', hpaid'⟩ := h'.log
  rw [h.owed, h.known] at hpaid'
  exact ⟨h'.keys.trans h.keys, h'.owed.trans h.owed, es ++ es',
    by rw [hes', hes, List.append_assoc], hpaid.append hpaid'⟩

/-- A refresh sets no column that names a record set. -/
theorem keys_of_aside {w w' : World} (h : IssuanceSteps.Aside w w') :
    w'.records.column recordKey = w.records.column recordKey := by
  funext id
  have hcolumns := congrArg (Option.map recordKey) (h.records id)
  rw [Option.map_map, Option.map_map] at hcolumns
  exact hcolumns

theorem pays_of_calm {w w' : World} (h : Calm w w')
    (haside : IssuanceSteps.Aside w w') : Pays w w' := by
  obtain ⟨es, hes, hcalm⟩ := h.events
  exact ⟨keys_of_aside haside, funext (owedBy_of_calm h), es, hes,
    paid_of_calm es hcalm⟩

section Pass

variable (env : Env) (addr : Address) (o : Oracle Call)

/-- All runs that are owed, or none if the list of tasks was not read. -/
theorem fireTasks_outcome (recordID : Int) (s : Sys World) :
    (fireTasks env recordID triggerIP none).wp o s fun _ t =>
      Appends [] s.state t.state ∨
        Appends (owedBy s.state recordID) s.state t.state := by
  by_cases ho : o s.clock .listEnabledTasksByRecord = .none
  · exact Prog.wp_mono (fireTasks_appends env recordID ho)
      fun _ _ h => .inr h.2
  · refine Prog.wp_mono (fireTasks_follows follows_appends env triggerIP none
      recordID s) ?_
    rintro res t ⟨-, h⟩
    rw [if_neg ho] at h
    exact .inl h

theorem countResult_outcome (r : Record) (result : GoString) (report : Report)
    (s : Sys World) :
    (countResult env r result report).wp o s fun _ t =>
      Appends [] s.state t.state ∨ (result = resultUpdated ∧
        Appends (owedBy s.state r.id) s.state t.state) := by
  unfold countResult
  split
  · next hupdated =>
    rw [Prog.wp_bind]
    refine Prog.wp_mono (fireTasks_outcome env o r.id s) ?_
    rintro (err | _) t h
    · exact h.imp id fun h => ⟨hupdated, h⟩
    · exact h.imp id fun h => ⟨hupdated, h⟩
  · split
    · exact .inl (.nil _)
    · exact .inl (.nil _)

/-- One record of a pass: nothing, a write, or a write and the runs it is
owed. -/
theorem refreshOne_outcome (report : Report) (r : Record) (s : Sys World) :
    (refreshOne env addr report r).wp o s fun _ t => ∃ es,
      Appends es s.state t.state ∧
        (Known s.state r → Paid (owedBy s.state) (Known s.state) es) := by
  unfold refreshOne
  split
  · rw [Prog.wp_bind]
    refine Prog.wp_mono (refreshRecordStatus_outcome env r addr o s) ?_
    rintro _ t ⟨status, rfl, hstatus⟩
    show Prog.wp _ o t _
    rw [Prog.wp_bind]
    refine Prog.wp_mono (countResult_outcome env o r status.result report t) ?_
    intro res u hcount
    suffices hlog : ∃ es, Appends es s.state u.state ∧
        (Known s.state r → Paid (owedBy s.state) (Known s.state) es) by
      cases res with
      | error err => exact hlog
      | ok report' => exact hlog
    rcases hstatus with ⟨hother, h⟩ | ⟨ip, after, -, -, -, h⟩
    · rcases hcount with h' | ⟨hupdated, -⟩
      · exact ⟨[], h.trans h', fun _ => .nil⟩
      · exact absurd hupdated hother
    · rcases hcount with h' | ⟨-, h'⟩
      · exact ⟨_, h.trans h', fun hr => .unpaid _ _ _ _ _ hr .nil⟩
      · refine ⟨_, h.trans h', fun hr => ?_⟩
        rw [h.owed r.id, ← List.append_nil (owedBy s.state r.id)]
        exact .paid _ _ _ _ _ hr .nil
  · exact ⟨[], .nil _, fun _ => .nil⟩

theorem refreshOne_pays (report : Report) {r : Record} {s : Sys World}
    (hknown : Known s.state r) :
    (refreshOne env addr report r).wp o s fun _ t => Pays s.state t.state := by
  refine Prog.wp_mono (Prog.wp_and (refreshOne_outcome env addr o report r s)
    (AddressRecorded.refreshOne_aside o env addr report r s)) ?_
  rintro res t ⟨⟨es, happends, hpaid⟩, haside⟩
  exact ⟨keys_of_aside haside, funext happends.owed, es, happends.events,
    hpaid hknown⟩

/-- The first loop of a pass. -/
theorem refreshLoop_pays :
    ∀ (records : List Record) (report : Report) (s : Sys World),
      (∀ r ∈ records, Known s.state r) →
        (records.foldlM (refreshOne env addr) report).wp o s fun _ t =>
          Pays s.state t.state := by
  intro records
  induction records with
  | nil => exact fun _ s _ => Pays.refl s.state
  | cons r records ih =>
      intro report s hknown
      rw [List.foldlM_cons, Prog.wp_bind]
      refine Prog.wp_mono (refreshOne_pays env addr o report
        (hknown r List.mem_cons_self)) ?_
      rintro (err | report') t h
      · exact h
      · have hrest : ∀ r' ∈ records, Known t.state r' := fun r' hr' =>
          h.known ▸ hknown r' (List.mem_cons_of_mem r hr')
        exact Prog.wp_mono (ih report' t hrest) fun _ _ h' =>
          Pays.trans _ _ _ h h'

theorem finishReport_pays (report : Report) :
    Prog.Keeps o Pays (finishReport report) := by
  have hsend : ∀ report, Prog.Keeps o Pays (sendReport report) :=
    fun report s => Prog.wp_mono (Prog.wp_and (sendReport_calm o report s)
      (AddressRecorded.sendReport_aside o report s))
      fun _ _ h => pays_of_calm h.1 h.2
  exact .ite (fun _ => hsend _) fun _ =>
    .ite (fun _ => hsend _) fun _ => .pure Pays.refl _

theorem giveUp_pays (report : Report) (shown : GoError)
    (message : GoString) :
    Prog.Keeps o Pays (giveUp env report shown message) := by
  refine .bind Pays.trans (fun s => ?_) fun _ => .throw Pays.refl _
  exact Prog.wp_mono (Prog.wp_and (sendReport_calm o _ s)
    (AddressRecorded.sendReport_aside o _ s)) fun _ _ h => pays_of_calm h.1 h.2

/-- A row of the table is known. -/
theorem known_of_mem {w : World} {r : Record} (h : r ∈ w.records.rows) :
    Known w r :=
  Table.column_eq_some (Table.find?_of_mem h)

/-- The list is one of the rows. -/
theorem listRecords_rows (s : Sys World) :
    (listRecords env).wp o s fun res t => t.state = s.state ∧
      ∀ records, res = .ok records → ∀ r ∈ records, r ∈ s.state.records.rows := by
  refine Prog.wp_query_of ⟨rfl, ?_⟩ ⟨rfl, nofun⟩
  intro records h r hr
  obtain rfl := Except.ok.inj h
  exact (List.mem_insertionSort _).mp hr

theorem refreshAll_pays : Prog.Keeps o Pays (refreshAll env addr) := by
  have hcerts : ∀ report r, Prog.Keeps o Pays (certificateOne env report r) :=
    fun report r s => Prog.wp_mono (Prog.wp_and
      (certificateOne_calm o env report r s)
      (AddressRecorded.certificateOne_aside o env report r s))
      fun _ _ h => pays_of_calm h.1 h.2
  intro s
  unfold refreshAll
  rw [Prog.wp_bind, Prog.wp_attempt, Prog.wp_mapError]
  refine Prog.wp_mono (listRecords_rows env o s) ?_
  rintro (err | records) t ⟨ht, hrows⟩
  · exact ht ▸ giveUp_pays env o _ _ _ t
  rw [← ht] at hrows ⊢
  dsimp only [Except.mapError]
  unfold refreshListed
  rw [Prog.wp_bind]
  refine Prog.wp_mono (refreshLoop_pays env addr o records _ t fun r hr =>
    known_of_mem (hrows records rfl r hr)) ?_
  rintro (err | report) u h
  · exact h
  have hrest : Prog.Keeps o Pays (do
      let report ← records.foldlM (certificateOne env) report
      finishReport report) :=
    .bind Pays.trans (.foldlM Pays.refl Pays.trans hcerts _ _)
      (finishReport_pays o)
  exact Prog.wp_mono (hrest u) fun _ _ h' => Pays.trans _ _ _ h h'

/-- The address update touches neither records nor tasks. -/
theorem updateAddress_pays : Prog.Keeps o Pays (updateAddress env) := by
  refine fun s => Prog.wp_mono (updateAddress_spec env o s) fun _ t h => ?_
  exact ⟨by rw [h.frame], by rw [h.frame]; rfl, [], by rw [h.frame]; simp,
    .nil⟩

theorem refresh_pays : Prog.Keeps o Pays (refresh env) := by
  refine .bind Pays.trans (.attempt (updateAddress_pays env o)) fun saved => ?_
  cases saved with
  | error err => exact giveUp_pays env o _ _ _
  | ok address => exact refreshAll_pays env address o

end Pass

/-! ### Sequences of passes -/

/-- The operations of a sequence of passes. -/
def IsPass : Op → Prop
  | .refresh _ _ => True
  | .serverRefreshAddress _ _ => True
  | _ => False

theorem serverRefreshAddress_pays (env : Env) (o : Oracle Call) :
    Prog.Keeps o Pays (Server.refreshAddress env) :=
  .bind Pays.trans (.mapError (updateAddress_pays env o) _) fun _ =>
    .pure Pays.refl _

theorem op_pays {w : World} {op : Op} (h : IsPass op) :
    Pays w (op.apply w) := by
  cases op with
  | refresh env o => exact refresh_pays env o ⟨w, 0⟩
  | serverRefreshAddress env o => exact serverRefreshAddress_pays env o ⟨w, 0⟩
  | upsertRecord env o input => exact h.elim
  | serverRefreshRecord env o id => exact h.elim
  | elsewhere c => exact h.elim

/-- The runs that are owed to a record are those of its tasks. -/
theorem owedBy_runs (w : World) (id : Int) :
    (owedBy w id).filterMap ranIP =
      (w.tasks.rows.filter (ipTask id)).map Task.id := by
  rw [owedBy, List.filterMap_map]
  exact congrFun List.filterMap_eq_map _

theorem owedBy_nodup (w : World) (id : Int) :
    ((owedBy w id).filterMap ranIP).Nodup := by
  rw [owedBy_runs]
  exact w.tasks.distinct.sublist (List.filter_sublist.map _)

/-- A task belongs to one record. -/
theorem owedBy_apart (w : World) {id id' task : Int}
    (h : task ∈ (owedBy w id).filterMap ranIP)
    (h' : task ∈ (owedBy w id').filterMap ranIP) : id = id' := by
  rw [owedBy_runs] at h h'
  obtain ⟨t, ht, rfl⟩ := List.mem_map.mp h
  obtain ⟨t', ht', hsame⟩ := List.mem_map.mp h'
  obtain ⟨hmem, hid⟩ := List.mem_filter.mp ht
  obtain ⟨hmem', hid'⟩ := List.mem_filter.mp ht'
  have heq : t' = t := List.inj_on_of_nodup_map w.tasks.distinct hmem' hmem hsame
  rw [heq] at hid'
  simp only [ipTask, Bool.and_eq_true, beq_iff_eq] at hid hid'
  omega

/-- Two known records with one key name one record set. -/
theorem known_key {w : World} {r r' : Record} (h : Known w r)
    (h' : Known w r') (hid : r.id = r'.id) : recordKey r = recordKey r' := by
  rw [Known, hid, h'] at h
  exact (Option.some.inj h).symm

theorem op_wrote {ip : GoString} {w : World} {op : Op} (h : IsPass op)
    (hsteady : Steady ip w op) : Wrote ip w (op.apply w) := by
  cases op with
  | refresh env o => exact refresh_wrote env o hsteady ⟨w, 0⟩
  | serverRefreshAddress env o =>
      exact serverRefreshAddress_wrote env o ip ⟨w, 0⟩
  | upsertRecord env o input => exact h.elim
  | serverRefreshRecord env o id => exact h.elim
  | elsewhere c => exact h.elim

/-- What a sequence of passes does: it writes one address, and its log is paid
for. -/
structure Passes (ip : GoString) (w w' : World) : Prop where
  wrote : Wrote ip w w'
  pays : Pays w w'

theorem run_passes {ip : GoString} {ops : List Op} {w w' : World}
    (hpass : ∀ op ∈ ops, IsPass op)
    (halong : operations.Along (Steady ip) w ops)
    (hrun : operations.run w ops = some w') : Passes ip w w' := by
  have hstep : ∀ s op s', Passes ip w s → IsPass op ∧ Steady ip s op →
      operations.step s op = some s' → Passes ip w s' := by
    intro s op s' hs hop hstep
    obtain rfl := Option.some.inj hstep
    exact ⟨Wrote.trans ip _ _ _ hs.wrote (op_wrote hop.1 hop.2),
      Pays.trans _ _ _ hs.pays (op_pays hop.1)⟩
  exact Machine.invariant_along hstep ops w w' ⟨Wrote.refl ip w, Pays.refl w⟩
    (operations.along_and ops w
      (operations.along_of_mem ops w fun op hop _ => hpass op hop) halong) hrun

/-- Each run of a task for a change of address stands behind a write of the
record set of its record. -/
def RunsFollowWrites (w : World) (es : List Event) : Prop :=
  ∀ (pre post : List Event) (id : Int),
    es = pre ++ .runTask id triggerIP :: post →
      ∃ task ∈ w.tasks.rows, task.id = id ∧ ∃ key,
        w.records.column recordKey task.recordID = some key ∧
          key ∈ pre.filterMap setKey

theorem Paid.runsFollowWrites {w : World} {es : List Event}
    (h : Paid (owedBy w) (Known w) es) : RunsFollowWrites w es := by
  intro pre post id hsplit
  obtain ⟨r, hknown, howed, hkey⟩ := h.follows pre post id hsplit
  rw [owedBy_runs] at howed
  obtain ⟨task, htask, rfl⟩ := List.mem_map.mp howed
  obtain ⟨hmem, hfires⟩ := List.mem_filter.mp htask
  have hrecord : task.recordID = r.id := by
    simp only [ipTask, Bool.and_eq_true, beq_iff_eq] at hfires
    omega
  exact ⟨task, hmem, rfl, recordKey r, hrecord ▸ hknown, hkey⟩

/-- **Tasks run once.**  In a sequence of passes that resolve the same IPv4
address, whatever was current before and whatever fails, no record set is
written twice, each run of a task for a change of address stands behind the
write of its record's record set, and no task is run twice. -/
theorem tasks_run_once (ip : GoString) (ops : List Op) (w w' : World)
    (hpass : ∀ op ∈ ops, IsPass op)
    (halong : operations.Along (Steady ip) w ops)
    (hrun : operations.run w ops = some w') :
    ∃ es, w'.events = w.events ++ es ∧ (es.filterMap setKey).Nodup ∧
      RunsFollowWrites w es ∧ (es.filterMap ranIP).Nodup := by
  have hpasses := run_passes hpass halong hrun
  obtain ⟨es, hes, -, hkeys, -⟩ := hpasses.wrote.once
  obtain ⟨es', hes', hpaid⟩ := hpasses.pays.log
  obtain rfl : es = es' := List.append_cancel_left (hes.symm.trans hes')
  exact ⟨es, hes, hkeys, hpaid.runsFollowWrites,
    hpaid.runs_nodup (fun _ _ => known_key) (owedBy_nodup w)
      (fun _ _ _ => owedBy_apart w) hkeys⟩

private def oldAddress : Table Address :=
  Table.empty.insert fun id =>
    { Address.zero with id, ipv4 := some (lit "198.51.100.7"), current := true }

/-- Another address is current. -/
private def shopMoved : World :=
  { Op.apply (.elsewhere shopTables) untouched with addresses := oldAddress }

/-- The address has changed before the first pass, which writes it and runs the
task; the second one finds it there. -/
private def moving : List Op :=
  [.refresh dialled .quiet, .refresh dialled .quiet]

private def shopSettled : World :=
  Op.apply (.refresh dialled .quiet) (Op.apply (.refresh dialled .quiet)
    shopMoved)

theorem tasks_run_once_moved :
    .runTask 1 triggerIP ∈ shopSettled.events ∧
      ∃ es, shopSettled.events = [] ++ es ∧ (es.filterMap setKey).Nodup ∧
        RunsFollowWrites shopMoved es ∧ (es.filterMap ranIP).Nodup := by
  refine ⟨by decide, tasks_run_once "203.0.113.9" moving shopMoved shopSettled
    ?_ ⟨rfl, rfl, trivial⟩ rfl⟩
  intro op hop
  simp only [moving, List.mem_cons, List.not_mem_nil, or_false] at hop
  rcases hop with rfl | rfl
  · trivial
  · trivial

end Hdns.Ports.SteadyAddress

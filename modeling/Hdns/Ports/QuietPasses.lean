import Hdns.Ports.SteadyAddress

/-!
# Passes with nothing to do

A pass mails a report of failure if anything has gone wrong with the address,
the list or a record.  A pass that mails none has therefore brought every DDNS
record to the current address, and what it leaves behind is `Resting`: the
current row holds the resolved pair, and the record set of every DDNS record
begins with its IPv4 address.

From such a state a pass finds all records unchanged.  A request that fails
makes it mail a failure and has no other effect, so the state is at rest
again, and so on for every later pass.

## Main results

* `refreshAll_settles` — a pass without a report of failure leaves every
  record at rest.
* `refresh_resting` — what a pass does to a state at rest.
* `passes_come_to_rest` — the passes after a pass without failures.
-/

namespace Hdns.Ports.QuietPasses

open Hdns.Verified
open Hdns.Verified.GoString
open Hdns.Ports.Schema
open Hdns.Ports.UpdateAddress
open Hdns.Ports.Hetzner
open Hdns.Ports.Tasks
open Hdns.Ports.Service
open Hdns.Ports.Operations
open Hdns.Ports.Convergence
open Hdns.Ports.RefreshReports
open Hdns.Ports.SteadyAddress

/-! ## A record at rest -/

/-- The record's token can be decrypted, and its A record set begins with the
address. -/
def Holds (env : Env) (addr : Address) (w : World) (r : Record) : Prop :=
  (∃ token, clientForRecord env r = .ok token) ∧
    ∃ ip, addr.ipv4 = some ip ∧ firstAt w.zones r.zoneID r.name = some ip

section Record

variable {env : Env} {addr : Address} {r : Record} {o : Oracle Call}

/-- The address of a row never leaves the front of a record set again. -/
theorem Holds.towards {w w' : World} (h : Holds env addr w r)
    (ht : Towards addr.ipv4.string w w') : Holds env addr w' r := by
  obtain ⟨htoken, ip, hip, hfirst⟩ := h
  refine ⟨htoken, ip, hip, ?_⟩
  rcases ht r with hkept | ⟨found, hfound, hvalues⟩
  · rw [firstAt, ← rrset, hkept]
    exact hfirst
  · rw [firstAt, ← rrset, hfound, hip] at *
    rw [Option.bind_some, hvalues]
    rfl

/-- A record that is said to be up to date holds the address. -/
theorem refreshRecordStatus_holds (s : Sys World) :
    (refreshRecordStatus env r addr).wpOk o s fun status t =>
      Settled status → Holds env addr t.state r := by
  unfold refreshRecordStatus
  cases hip : addr.ipv4 with
  | none => exact Prog.wpOk_pure fun h => absurd h (not_settled_failed rfl)
  | some ip =>
      refine Prog.wpOk_bind (Prog.wpOk_attempt ?_ fun err t =>
        Prog.wpOk_pure fun h => absurd h (not_settled_failed rfl))
      refine Prog.wpOk_mono (fetchRecord_ok env r) ?_
      rintro found t ⟨-, rfl, htoken⟩
      dsimp only
      split
      · next hfirst => exact Prog.wpOk_pure fun _ => ⟨htoken, ip, hip, hfirst⟩
      · refine Prog.wpOk_bind (Prog.wpOk_attempt ?_ fun err t =>
          Prog.wpOk_pure fun h => absurd h (not_settled_failed rfl))
        refine Prog.wpOk_mono (updateRecord_ok hip) ?_
        rintro _ u ⟨found, hfound, hvalues⟩
        refine Prog.wpOk_pure fun _ => ⟨htoken, ip, hip, ?_⟩
        rw [firstAt, ← rrset, hfound, Option.bind_some, hvalues]
        rfl

theorem refreshRecordStatus_towards :
    Prog.Keeps o (Towards addr.ipv4.string) (refreshRecordStatus env r addr) :=
  refreshRecordStatus_tracks (towards_tracks _) env fun ip hip w new hnew =>
    towards_write r addr (by rw [hnew, hip]; rfl)

/-- A record at rest is not updated. -/
theorem refreshRecordStatus_spared {s : Sys World}
    (h : Holds env addr s.state r) :
    (refreshRecordStatus env r addr).wpOk o s fun status _ =>
      status.result ≠ resultUpdated := by
  obtain ⟨-, ip, hip, hfirst⟩ := h
  refine Prog.wpOk_of_wp (Prog.wp_mono
    (refreshRecordStatus_outcome env r addr o s) ?_)
  rintro _ t ⟨status, rfl, ⟨hother, -⟩ | ⟨ip', after, hip', hother, -⟩⟩ a ha
  · exact Except.ok.inj ha ▸ hother
  · obtain rfl := Option.some.inj (hip.symm.trans hip')
    exact absurd hfirst hother

/-- Nothing is written for a record at rest, and it is reported as unchanged
unless a request fails. -/
theorem refreshRecordStatus_idle {s : Sys World}
    (h : Holds env addr s.state r) :
    (refreshRecordStatus env r addr).wpOk o s fun status t =>
      t.state = s.state ∧ status.result ≠ resultUpdated ∧
        (o = .quiet → status.result = resultUnchanged) := by
  have hspared : (refreshRecordStatus env r addr).wpOk o s fun status _ =>
      status.result ≠ resultUpdated := refreshRecordStatus_spared h
  obtain ⟨htoken, ip, hip, hfirst⟩ := h
  refine Prog.wpOk_and (refreshRecordStatus_first hip hfirst)
    (Prog.wpOk_and hspared ?_)
  by_cases ho : o = .quiet
  · subst ho
    exact Prog.wpOk_mono (refreshRecordStatus_unchanged hip htoken hfirst)
      fun _ _ hsame _ => hsame
  · exact fun _ _ _ hquiet => absurd hquiet ho

end Record

/-! ## A pass without a report of failure -/

/-- A report of failure. -/
def IsFailure (e : Event) : Prop :=
  ∃ report, e = .sendReport report ∧ report.severity = severityFailure

instance (e : Event) : Decidable (IsFailure e) :=
  match e with
  | .sendReport report => decidable_of_iff (report.severity = severityFailure)
      ⟨fun h => ⟨report, rfl, h⟩, fun ⟨_, hreport, h⟩ =>
        Event.sendReport.inj hreport ▸ h⟩
  | .writeA _ _ _ _ => .isFalse nofun
  | .runTask _ _ => .isFalse nofun
  | .startIssuance _ => .isFalse nofun

/-- What is known of the first loop. -/
structure FirstLoop (env : Env) (addr : Address) (records : List Record)
    (w : World) (report : Report) (w' : World) : Prop where
  logs : Logs w w'
  holds : report.failedCount = 0 →
    ∀ r ∈ reported records, Holds env addr w' r

section Pass

variable (env : Env) (addr : Address) (o : Oracle Call)

theorem refreshOne_logs (report : Report) (r : Record) :
    Prog.Keeps o Logs (refreshOne env addr report r) :=
  refreshOne_tracks logs_tracks env
    (fun _ _ _ _ _ _ _ => ⟨[_], rfl, rfl, rfl⟩) report r

/-- Where no entry says "failed", every entry settles its record. -/
private theorem all_of_forall₂ {α β : Type} {P : α → β → Prop} {Q : α → Prop}
    {as : List α} {bs : List β} (h : List.Forall₂ P as bs)
    (hQ : ∀ a b, b ∈ bs → P a b → Q a) : ∀ a ∈ as, Q a := by
  induction h with
  | nil => exact fun _ ha => absurd ha List.not_mem_nil
  | cons hab _ ih =>
      intro a ha
      rcases List.mem_cons.mp ha with rfl | ha
      · exact hQ _ _ List.mem_cons_self hab
      · exact ih (fun a b hb => hQ a b (List.mem_cons_of_mem _ hb)) a ha

theorem settled_of_graded {status : RecordStatus} (h : Graded status)
    (hfailed : status.result ≠ resultFailed) : Settled status := by
  rcases h with h | h | h
  · exact .inl h
  · exact absurd h hfailed
  · exact .inr h

theorem firstLoop_outcome (records : List Record) (s : Sys World) :
    (records.foldlM (refreshOne env addr) (firstReport addr)).wpOk o s
      fun report t => FirstLoop env addr records s.state report t.state := by
  have hR := towards_tracks addr.ipv4.string
  have hlogs : Prog.Keeps o Logs
      (records.foldlM (refreshOne env addr) (firstReport addr)) :=
    .foldlM logs_tracks.refl logs_tracks.trans (refreshOne_logs env addr o) _ _
  refine Prog.wpOk_mono (Prog.wpOk_and (Prog.wpOk_of_keeps hlogs)
    (Prog.wpOk_and (refreshLoop_processed records (firstReport addr) s
      ⟨rfl, rfl, rfl⟩) (refreshLoop_ok hR env
        (P := fun r status w => Settled status → Holds env addr w r)
        (fun r status w w' h ht hsettled => (h hsettled).towards ht)
        records (firstReport addr) s (fun r _ _ s' _ => Prog.wpOk_and
          (Prog.wpOk_of_keeps refreshRecordStatus_towards)
          (refreshRecordStatus_holds s')) (hR.refl _)))) ?_
  rintro report t ⟨hlog, hloop, -, statuses, hrecords, hall⟩
  refine ⟨hlog, fun hnone => all_of_forall₂ hall ?_⟩
  obtain ⟨-, hcounted, statuses', hrecords', hprocessed⟩ := hloop
  have hgraded := hprocessed.names.2
  obtain rfl : statuses = statuses' :=
    List.append_cancel_left (hrecords.symm.trans hrecords')
  have hcount := hcounted.failed.symm.trans hnone
  intro r status hstatus hsettles
  refine hsettles (settled_of_graded (hgraded status hstatus) ?_)
  have hmem : status ∈ report.records := by
    rw [hrecords]
    exact List.mem_append_right _ hstatus
  simpa using List.countP_eq_zero.mp hcount status hmem

/-- What a pass over these records leaves if it mails no failure. -/
def Settles (records : List Record) (w w' : World) : Prop :=
  ∀ es, w'.events = w.events ++ es → (∀ e ∈ es, ¬IsFailure e) →
    ∀ r ∈ reported records, Holds env addr w' r

/-- A report of failure at the end of the log. -/
theorem settles_of_failure {records : List Record} {w w' : World}
    (es : List Event) (report : Report)
    (hfailure : report.severity = severityFailure)
    (hes : w'.events = w.events ++ (es ++ [.sendReport report])) :
    Settles env addr records w w' := by
  intro es' hes' hclean
  obtain rfl := List.append_cancel_left (hes'.symm.trans hes)
  exact absurd ⟨report, rfl, hfailure⟩
    (hclean _ (List.mem_append_right es (List.mem_singleton_self _)))

theorem Holds.log {w : World} {r : Record} (h : Holds env addr w r)
    (e : Event) : Holds env addr (w.log e) r := h

theorem finishReport_settles {records : List Record} {report : Report}
    {w : World} {s : Sys World}
    (h : FirstLoop env addr records w report s.state) :
    (finishReport report).wp o s fun _ t =>
      Settles env addr records w t.state := by
  obtain ⟨⟨es, hes, -⟩, hholds⟩ := h
  unfold finishReport
  split
  · refine settles_of_failure env addr es
      { report with severity := severityFailure } rfl ?_
    rw [← List.append_assoc, ← hes]
    rfl
  next hnone =>
  have hzero : report.failedCount = 0 := by
    simp only [not_or, Nat.not_lt, Nat.le_zero] at hnone
    exact hnone.1
  split
  · exact fun _ _ _ r hr => (hholds hzero r hr).log env addr _
  · exact fun _ _ _ => hholds hzero

theorem refreshListed_settles (records : List Record) (s : Sys World) :
    (refreshListed env addr records (firstReport addr)).wp o s fun _ t =>
      Settles env addr records s.state t.state := by
  unfold refreshListed
  rw [Prog.wp_bind]
  refine Prog.wp_mono (Prog.Succeeds.wp (.foldlM
    (refreshOne_succeeds o env addr) _ _) (firstLoop_outcome env addr o
      records s)) ?_
  rintro _ t ⟨report, rfl, hloop⟩
  show Prog.wp _ o t _
  rw [Prog.wp_bind, Prog.wp, certificateLoop_eq]
  exact finishReport_settles env addr o
    (s := ⟨t.state, t.clock + (certified records).length⟩)
    ⟨hloop.logs, hloop.holds⟩

theorem giveUp_sends (report : Report) (shown : GoError) (message : GoString)
    (s : Sys World) :
    (giveUp env report shown message).wp o s fun _ t => ∃ report',
      report'.severity = severityFailure ∧
        t.state = s.state.log (.sendReport report') :=
  ⟨{ report with
    addressError := env.errorText shown, severity := severityFailure }, rfl, rfl⟩

theorem giveUp_settles (records : List Record) (report : Report)
    (shown : GoError) (message : GoString) {w : World} {s : Sys World}
    (hw : s.state.events = w.events) :
    (giveUp env report shown message).wp o s fun _ t =>
      Settles env addr records w t.state := by
  refine Prog.wp_mono (giveUp_sends env o report shown message s) ?_
  rintro _ t ⟨report', hfailure, ht⟩
  refine settles_of_failure env addr [] report' hfailure ?_
  rw [ht, ← hw]
  rfl

/-- The list is all of the table. -/
theorem listRecords_all (s : Sys World) :
    (listRecords env).wp o s fun res t => t.state = s.state ∧
      ∀ records, res = .ok records →
        ∀ r, r ∈ records ↔ r ∈ s.state.records.rows := by
  refine Prog.wp_query_of ⟨rfl, ?_⟩ ⟨rfl, nofun⟩
  intro records h r
  obtain rfl := Except.ok.inj h
  exact List.mem_insertionSort _

/-- **A pass without a report of failure** brings all records to rest. -/
theorem refreshAll_settles (s : Sys World) :
    (refreshAll env addr).wp o s fun _ t =>
      Settles env addr s.state.records.rows s.state t.state := by
  unfold refreshAll
  rw [Prog.wp_bind, Prog.wp_attempt, Prog.wp_mapError]
  refine Prog.wp_mono (listRecords_all env o s) ?_
  rintro (err | records) t ⟨ht, hrows⟩
  · exact giveUp_settles env addr o _ _ _ _ (ht ▸ rfl)
  · dsimp only [Except.mapError]
    refine Prog.wp_mono (refreshListed_settles env addr o records t) ?_
    intro _ u hsettles es hes hclean r hr
    obtain ⟨hmem, hddns⟩ := List.mem_filter.mp hr
    exact hsettles es (ht ▸ hes) hclean r
      (List.mem_filter.mpr ⟨(hrows records rfl r).mpr hmem, hddns⟩)

end Pass

/-! ## States at rest -/

/-- The current row holds what is resolved. -/
def IsCurrent (env : Env) (addr : Address) (w : World) : Prop :=
  currentAddress w.addresses = some addr ∧
    resolve env.consensus4 env.consensus6 =
      .ok (addr.ipv4.string, addr.ipv6.string)

/-- Nothing is to be done. -/
def Resting (env : Env) (w : World) : Prop :=
  ∃ addr, IsCurrent env addr w ∧
    ∀ r ∈ w.records.rows, recordDoesDDNS r.purpose = true →
      Holds env addr w r

section Rest

variable (env : Env) (o : Oracle Call)

theorem replaceAddress_isCurrent (ipv4 ipv6 : GoString) (s : Sys World) :
    (replaceAddress env ipv4 ipv6).wpOk o s fun addr t =>
      currentAddress t.state.addresses = some addr := by
  refine Prog.wpOk_bind_any fun _ t => Prog.wpOk_bind_any fun _ u => ?_
  refine Prog.wpOk_mapError (Prog.wpOk_of_wp
    (Prog.wp_mono (getCurrentAddress_spec o u) ?_))
  rintro res v ⟨hv, hread⟩ addr haddr
  rw [hv]
  exact hread addr haddr

/-- An address update that returns a row leaves it current. -/
theorem updateAddress_isCurrent (s : Sys World) :
    (updateAddress env).wpOk o s fun addr t => IsCurrent env addr t.state := by
  unfold updateAddress
  cases hres : resolve env.consensus4 env.consensus6 with
  | error err => exact Prog.wpOk_throw _
  | ok pair =>
      obtain ⟨ipv4, ipv6⟩ := pair
      have hne := (resolve_ok hres).2
      refine Prog.wpOk_mapError ?_
      unfold saveAddress
      refine Prog.wpOk_bind (Prog.wpOk_of_wp (Prog.wp_mono
        (scanCurrent_spec o s) ?_))
      rintro res t ⟨ht, hread⟩ addr rfl
      split
      · next hpair =>
        rcases hread addr rfl with hcur | rfl
        · refine Prog.wpOk_pure ⟨ht ▸ hcur, ?_⟩
          rw [hres, hpair.1, hpair.2]
        · exact absurd ⟨hpair.1.symm, hpair.2.symm⟩ hne
      · refine Prog.wpOk_mono (Prog.wpOk_and
          (replaceAddress_isCurrent env o ipv4 ipv6 t)
          (Prog.wpOk_of_wp (Prog.wp_mono
            (replaceAddress_spec env ipv4 ipv6 o t) fun _ _ h => h.stored))) ?_
        rintro a u ⟨hcur, -, hipv4, hipv6⟩
        exact ⟨hcur, by rw [hres, hipv4, hipv6]⟩

/-- What the environment can do to a program that changes nothing: with every
request answered, the program returns this value. -/
def Reads {α : Type} (o : Oracle Call) (a : α) (s : Sys World)
    (res : Except GoError α) (t : Sys World) : Prop :=
  t.state = s.state ∧ (∀ b, res = .ok b → b = a) ∧ (o = .quiet → res = .ok a)

variable {addr : Address} {s : Sys World}

theorem scanCurrent_current
    (hcur : currentAddress s.state.addresses = some addr) :
    scanCurrent.wp o s (Reads o addr s) := by
  unfold scanCurrent getCurrentAddress
  rw [Prog.wp_bind, Prog.wp_attempt]
  by_cases ho : o s.clock .getCurrentAddress = .none
  · rw [Prog.wp_query_none ho, hcur]
    exact ⟨rfl, fun b hb => (Except.ok.inj hb).symm, fun _ => rfl⟩
  · rw [Prog.wp_query_faulty ho]
    refine ⟨rfl, nofun, ?_⟩
    rintro rfl
    exact absurd rfl ho

/-- At rest, the address update finds the address. -/
theorem updateAddress_idle (h : IsCurrent env addr s.state) :
    (updateAddress env).wp o s (Reads o addr s) := by
  obtain ⟨hcur, hres⟩ := h
  unfold updateAddress saveAddress
  rw [hres]
  dsimp only
  rw [Prog.wp_mapError, Prog.wp_bind]
  refine Prog.wp_mono (scanCurrent_current o hcur) ?_
  rintro (err | a) t ⟨ht, hread, hquiet⟩
  · exact ⟨ht, nofun, fun ho => nomatch hquiet ho⟩
  · obtain rfl := hread a rfl
    show Prog.wp _ o t _
    rw [if_pos ⟨rfl, rfl⟩]
    exact ⟨ht, fun b hb => (Except.ok.inj hb).symm, fun _ => rfl⟩

/-- The report of a pass that has changed nothing so far. -/
structure Idle (o : Oracle Call) (w : World) (report : Report)
    (w' : World) : Prop where
  state : w' = w
  updated : report.updatedCount = 0
  addressError : report.addressError = []
  failed : o = .quiet → report.failedCount = 0

theorem refreshOne_idle {report : Report} {r : Record} {w : World}
    (hr : recordDoesDDNS r.purpose = true → Holds env addr w r)
    (h : Idle o w report s.state) :
    (refreshOne env addr report r).wpOk o s fun report' t =>
      Idle o w report' t.state := by
  unfold refreshOne
  split
  · next hddns =>
    have hholds : Holds env addr s.state r := h.state ▸ hr hddns
    refine Prog.wpOk_bind (Prog.wpOk_mono (refreshRecordStatus_idle hholds) ?_)
    rintro status t ⟨ht, hspared, hquiet⟩
    have hstate : t.state = w := ht.trans h.state
    unfold countResult
    rw [if_neg hspared]
    split
    · next hfailed =>
      refine Prog.wpOk_bind (Prog.wpOk_pure (Prog.wpOk_pure
        ⟨hstate, h.updated, h.addressError, fun ho => ?_⟩))
      rw [hquiet ho] at hfailed
      exact absurd hfailed (by decide)
    · exact Prog.wpOk_bind (Prog.wpOk_pure (Prog.wpOk_pure
        ⟨hstate, h.updated, h.addressError, h.failed⟩))
  · exact Prog.wpOk_pure h

/-- A world after some more reports of failure. -/
def Complains (w w' : World) : Prop :=
  ∃ es, w' = { w with events := w.events ++ es } ∧ ∀ e ∈ es, IsFailure e

theorem Complains.refl (w : World) : Complains w w :=
  ⟨[], by rw [List.append_nil], fun _ he => absurd he List.not_mem_nil⟩

theorem Complains.trans {w₁ w₂ w₃ : World} (h : Complains w₁ w₂)
    (h' : Complains w₂ w₃) : Complains w₁ w₃ := by
  obtain ⟨es, rfl, hes⟩ := h
  obtain ⟨es', rfl, hes'⟩ := h'
  refine ⟨es ++ es', by simp, fun e he => ?_⟩
  rcases List.mem_append.mp he with he | he
  · exact hes e he
  · exact hes' e he

theorem complains_sent (w : World) {report : Report}
    (h : report.severity = severityFailure) :
    Complains w (w.log (.sendReport report)) :=
  ⟨[.sendReport report], rfl, fun e he => by
    obtain rfl := List.mem_singleton.mp he
    exact ⟨report, rfl, h⟩⟩

/-- At rest, a request that fails is mailed, and nothing else happens. -/
def Rested (o : Oracle Call) (w : World) (res : Except GoError Unit)
    (w' : World) : Prop :=
  Complains w w' ∧ (o = .quiet → res = .ok () ∧ w' = w)

theorem finishReport_rested {report : Report} {w : World}
    (h : Idle o w report s.state) :
    (finishReport report).wp o s fun res t => Rested o w res t.state := by
  obtain ⟨hstate, hupdated, herror, hfailed⟩ := h
  unfold finishReport
  split
  · next hany =>
    refine ⟨hstate ▸ complains_sent s.state rfl, fun ho => ?_⟩
    simp [herror, hfailed ho] at hany
  · rw [if_neg (by omega)]
    exact ⟨hstate ▸ Complains.refl s.state, fun _ => ⟨rfl, hstate⟩⟩

theorem refreshListed_rested {records : List Record} {w : World}
    (hrecords : ∀ r ∈ records, recordDoesDDNS r.purpose = true →
      Holds env addr w r) (hs : s.state = w) :
    (refreshListed env addr records (firstReport addr)).wp o s fun res t =>
      Rested o w res t.state := by
  have hfirst : Idle o w (firstReport addr) s.state :=
    ⟨hs, rfl, rfl, fun _ => rfl⟩
  unfold refreshListed
  rw [Prog.wp_bind]
  refine Prog.wp_mono (Prog.Succeeds.wp (.foldlM
    (refreshOne_succeeds o env addr) _ _) (Prog.wpOk_foldlM
      (I := fun report t => Idle o w report t.state) records _ s
      (fun report r t hr => refreshOne_idle env o (hrecords r hr)) hfirst)) ?_
  rintro _ t ⟨report, rfl, h⟩
  show Prog.wp _ o t _
  rw [Prog.wp_bind, Prog.wp, certificateLoop_eq]
  exact finishReport_rested o
    (s := ⟨t.state, t.clock + (certified records).length⟩)
    ⟨h.state, h.updated, h.addressError, h.failed⟩

theorem giveUp_complains (report : Report) (shown : GoError)
    (message : GoString) :
    (giveUp env report shown message).wp o s fun _ t =>
      Complains s.state t.state := by
  refine Prog.wp_mono (giveUp_sends env o report shown message s) ?_
  rintro _ t ⟨report', hfailure, ht⟩
  exact ht ▸ complains_sent s.state hfailure

theorem refreshAll_rested (hholds : ∀ r ∈ s.state.records.rows,
    recordDoesDDNS r.purpose = true → Holds env addr s.state r) :
    (refreshAll env addr).wp o s fun res t =>
      Rested o s.state res t.state := by
  unfold refreshAll
  rw [Prog.wp_bind, Prog.wp_attempt, Prog.wp_mapError]
  by_cases ho : o s.clock .listRecords = .none
  · unfold listRecords
    rw [Prog.wp_query_none ho]
    refine refreshListed_rested env o (fun r hr => ?_) rfl
    exact hholds r ((List.mem_insertionSort _).mp hr)
  · unfold listRecords
    rw [Prog.wp_query_faulty ho]
    refine ⟨giveUp_complains env o _ _ _, ?_⟩
    rintro rfl
    exact absurd rfl ho

/-- **A pass at rest.** -/
theorem refresh_rested (h : Resting env s.state) :
    (refresh env).wp o s fun res t => Rested o s.state res t.state := by
  obtain ⟨addr, hcur, hholds⟩ := h
  unfold refresh
  rw [Prog.wp_bind, Prog.wp_attempt]
  refine Prog.wp_mono (updateAddress_idle env o hcur) ?_
  rintro (err | a) t ⟨ht, hread, hquiet⟩
  · exact ⟨ht ▸ giveUp_complains env o _ _ _, fun ho => nomatch hquiet ho⟩
  · obtain rfl := hread a rfl
    rw [← ht] at hholds ⊢
    exact refreshAll_rested env o hholds

end Rest

/-! ## Sequences of passes -/

/-- The public address and the key are the same. -/
structure SameView (env env' : Env) : Prop where
  ipv4 : env'.consensus4.1 = env.consensus4.1
  ipv6 : env'.consensus6.1 = env.consensus6.1
  encryptionKey : env'.encryptionKey = env.encryptionKey
  decrypt : env'.decrypt = env.decrypt

/-- What is at rest does not depend on the rest of the environment. -/
theorem Resting.of_sameView {env env' : Env} (hsame : SameView env env')
    {w : World} (h : Resting env w) : Resting env' w := by
  obtain ⟨addr, ⟨hcur, hres⟩, hholds⟩ := h
  have hres' : resolve env'.consensus4 env'.consensus6 =
      .ok (addr.ipv4.string, addr.ipv6.string) := by
    obtain ⟨hpair, hne⟩ := resolve_ok hres
    rw [hpair] at hne ⊢
    unfold resolve
    rw [hsame.ipv4, hsame.ipv6, if_neg hne]
  refine ⟨addr, ⟨hcur, hres'⟩, fun r hr hddns => ?_⟩
  obtain ⟨⟨token, htoken⟩, hfirst⟩ := hholds r hr hddns
  refine ⟨⟨token, ?_⟩, hfirst⟩
  unfold clientForRecord at htoken ⊢
  rw [hsame.encryptionKey, hsame.decrypt]
  exact htoken

/-- More reports do not disturb the rest. -/
theorem Resting.complains {env : Env} {w w' : World} (h : Resting env w)
    (hmore : Complains w w') : Resting env w' := by
  obtain ⟨es, rfl, -⟩ := hmore
  exact h

/-- A DDNS record of the later table is in the earlier one but for the
address it is shown with. -/
theorem holds_of_aside {env : Env} {addr : Address} {w w' : World}
    (haside : IssuanceSteps.Aside w w')
    (h : ∀ r ∈ reported w.records.rows, Holds env addr w' r) :
    ∀ r ∈ w'.records.rows, recordDoesDDNS r.purpose = true →
      Holds env addr w' r := by
  intro r hr hddns
  have hrow := haside.records r.id
  rw [show w'.records.find? r.id = some r from Table.find?_of_mem hr] at hrow
  obtain ⟨r', hr', hcolumns⟩ := Option.map_eq_some_iff.mp hrow.symm
  rw [IssuanceSteps.savedColumns, IssuanceSteps.savedColumns,
    Record.mk.injEq] at hcolumns
  obtain ⟨-, htoken, hzone, -, hname, -, -, hpurpose, -⟩ := hcolumns
  have hholds := h r' (List.mem_filter.mpr
    ⟨Table.find?_mem hr', by rwa [hpurpose]⟩)
  unfold Holds clientForRecord at hholds ⊢
  rwa [htoken, hzone, hname] at hholds

/-- What a pass without a report of failure leaves behind. -/
theorem refresh_rests (env : Env) (o : Oracle Call) (s : Sys World) :
    (refresh env).wp o s fun _ t => ∀ es,
      t.state.events = s.state.events ++ es → (∀ e ∈ es, ¬IsFailure e) →
        Resting env t.state := by
  have hcurrent : (updateAddress env).wp o s fun res t =>
      ∀ addr, res = .ok addr → IsCurrent env addr t.state :=
    fun addr h => updateAddress_isCurrent env o s addr _ (Prod.ext h rfl)
  unfold refresh
  rw [Prog.wp_bind, Prog.wp_attempt]
  refine Prog.wp_mono (Prog.wp_and (updateAddress_spec env o s) hcurrent) ?_
  rintro (err | addr) t ⟨hsaved, hcur⟩
  · refine Prog.wp_mono (giveUp_sends env o _ _ _ t) ?_
    rintro _ u ⟨report, hfailure, hu⟩ es hes hclean
    have hsent : u.state.events = s.state.events ++ [.sendReport report] := by
      rw [hu, hsaved.frame]
      rfl
    obtain rfl := List.append_cancel_left (hes.symm.trans hsent)
    exact absurd ⟨report, rfl, hfailure⟩
      (hclean _ (List.mem_singleton_self _))
  · refine Prog.wp_mono (Prog.wp_and (refreshAll_settles env addr o t)
      (Prog.wp_and (AddressRecorded.refreshAll_aside o env addr t)
        (refreshAll_renews env o rfl t))) ?_
    rintro _ u ⟨hsettles, haside, hrenews⟩ es hes hclean
    have hevents : t.state.events = s.state.events := by rw [hsaved.frame]
    have hholds := holds_of_aside haside
      (hsettles es (hevents ▸ hes) hclean)
    obtain ⟨hrow, hres⟩ := hcur addr rfl
    exact ⟨addr, ⟨hrenews.addresses ▸ hrow, hres⟩, hholds⟩

/-- Passes from a state at rest. -/
theorem rested_run {env : Env} {w w' : World} (hrest : Resting env w)
    (later : List (Env × Oracle Call)) (hsame : ∀ p ∈ later, SameView env p.1)
    (hrun : operations.run w (later.map fun p => .refresh p.1 p.2) = some w') :
    Complains w w' ∧ ((∀ p ∈ later, p.2 = .quiet) → w' = w) := by
  induction later generalizing w with
  | nil =>
      obtain rfl := Option.some.inj hrun
      exact ⟨Complains.refl _, fun _ => rfl⟩
  | cons p later ih =>
      obtain ⟨w₁, hstep, hrun⟩ := operations.run_cons_eq_some.mp hrun
      obtain rfl := Option.some.inj hstep
      have hp := hsame p List.mem_cons_self
      obtain ⟨hmore, hquiet⟩ : Complains w (Op.apply (.refresh p.1 p.2) w) ∧
          (p.2 = .quiet → _ ∧ Op.apply (.refresh p.1 p.2) w = w) :=
        refresh_rested p.1 p.2 (s := ⟨w, 0⟩) (hrest.of_sameView hp)
      obtain ⟨hmore', hquiet'⟩ := ih (hrest.complains hmore)
        (fun p hp => hsame p (List.mem_cons_of_mem _ hp)) hrun
      refine ⟨hmore.trans hmore', fun hall => ?_⟩
      rw [hquiet' fun p hp => hall p (List.mem_cons_of_mem _ hp)]
      exact (hquiet (hall p List.mem_cons_self)).2

/-- **Passes come to rest.**  After a pass that mails no failure, whatever has
gone wrong in it, no later pass does anything while the public address stays
the same: all it can do is to mail that a request has failed, and without one
it leaves the whole state as it is. -/
theorem passes_come_to_rest (env : Env) (o : Oracle Call) (w w' : World)
    (es : List Event) (hes : (Op.apply (.refresh env o) w).events =
      w.events ++ es) (hclean : ∀ e ∈ es, ¬IsFailure e)
    (later : List (Env × Oracle Call))
    (hsame : ∀ p ∈ later, SameView env p.1)
    (hrun : operations.run (Op.apply (.refresh env o) w)
      (later.map fun p => .refresh p.1 p.2) = some w') :
    Complains (Op.apply (.refresh env o) w) w' ∧
      ((∀ p ∈ later, p.2 = .quiet) → w' = Op.apply (.refresh env o) w) :=
  rested_run (refresh_rests env o ⟨w, 0⟩ es hes hclean) later hsame hrun

private def shop : Record :=
  ⟨1, "token", 7, "example.org", "shop", 60, none, purposeDDNS, false, none⟩

private def shopOpen : World :=
  { World.init fun _ _ => none with
    records := Table.empty.insert fun id => { shop with id := id } }

private def dialled : Env :=
  { Env.sample with consensus4 := ("203.0.113.9", none) }

/-- The request that looks for the current address fails. -/
private def addressUnread : Oracle Call := fun _ c =>
  if c = .getCurrentAddress then .fails else .none

/-- Two passes later on. -/
private def later : List (Env × Oracle Call) :=
  [({ dialled with now := 300 }, addressUnread),
    ({ dialled with now := 600 }, .quiet)]

private theorem later_sameView : ∀ p ∈ later, SameView dialled p.1 := by
  intro p hp
  rcases List.mem_cons.mp hp with rfl | hp
  · exact ⟨rfl, rfl, rfl, rfl⟩
  · obtain rfl := List.mem_singleton.mp hp
    exact ⟨rfl, rfl, rfl, rfl⟩

private def shopDone : World := Op.apply (.refresh dialled .quiet) shopOpen

theorem passes_come_to_rest_shop :
    Complains shopDone (Op.apply (.refresh { dialled with now := 600 } .quiet)
      (Op.apply (.refresh { dialled with now := 300 } addressUnread)
        shopDone)) :=
  (passes_come_to_rest dialled .quiet shopOpen _ shopDone.events
    (List.nil_append _).symm (by decide) later later_sameView rfl).1

end Hdns.Ports.QuietPasses

import Hdns.Ports.TaskFiring

/-!
# Where a refresh leaves the A record sets

`refreshRecordStatus` and `dns.RefreshRecord` take a record for up to date when
the *first* value of its A record set is the current address, and write
nothing then.  `UpdateRecord`, on the other path, replaces all values.  The two
paths end in the same record set, unless the first value is the address and
others follow it.

## Main results

* `refreshAll_eq` — the pass is the loops of `refreshReport`, which also
  returns the report.
* `refresh_converges_iff` — which zones every refresh leaves with the current
  address alone.
-/

namespace Hdns.Ports.Convergence

open Hdns.Verified
open Hdns.Verified.GoString
open Hdns.Ports.Schema
open Hdns.Ports.UpdateAddress
open Hdns.Ports.Hetzner
open Hdns.Ports.Tasks
open Hdns.Ports.Service
open Hdns.Ports.Operations
open Hdns.Ports.TaskFiring

/-! ## Converged and overlooked record sets -/

/-- The A record set of the record holds the address and nothing else. -/
def Converged (ip : GoString) (w : World) (r : Record) : Prop :=
  ∃ found, rrset w r = some found ∧ found.values = [ip]

/-- The record's token can be decrypted, and its A record set begins with the
address and goes on. -/
def Overlooked (env : Env) (ip : GoString) (w : World) (r : Record) : Prop :=
  (∃ token, clientForRecord env r = .ok token) ∧
    ∃ found, rrset w r = some found ∧ found.values.head? = some ip ∧
      found.values ≠ [ip]

/-- Each record set is what it was, or holds the address and nothing else. -/
def Towards (ip : GoString) (w w' : World) : Prop :=
  ∀ r : Record, rrset w' r = rrset w r ∨ Converged ip w' r

theorem towards_of_zones {ip : GoString} {w w' : World}
    (h : w'.zones = w.zones) : Towards ip w w' :=
  fun r => .inl (by rw [rrset, rrset, h])

theorem Converged.towards {ip : GoString} {w w' : World} {r : Record}
    (h : Converged ip w r) (ht : Towards ip w w') : Converged ip w' r := by
  cases ht r with
  | inl hkept =>
      obtain ⟨found, hfound, hvalues⟩ := h
      exact ⟨found, hkept.trans hfound, hvalues⟩
  | inr hset => exact hset

theorem towards_tracks (ip : GoString) : Tracks (Towards ip) where
  refl := fun w => towards_of_zones rfl
  trans := by
    intro w₁ w₂ w₃ h h' r
    cases h' r with
    | inr hset => exact .inr hset
    | inl hkept =>
        cases h r with
        | inl hkept' => exact .inl (hkept.trans hkept')
        | inr hset => exact .inr (hset.towards h')
  calm := fun w w' h => towards_of_zones h.zones
  saved := by
    intro ipv4 ipv6 w r w' h
    rw [h.frame]
    exact towards_of_zones rfl
  ran := fun w id event => towards_of_zones rfl
  result := fun w _ _ _ _ => towards_of_zones rfl

/-- The record set of one record after a write for another. -/
theorem rrset_write (r r' : Record) (addr : Address) (new : RRSet)
    (w : World) :
    rrset (write r addr new w) r' =
      if r'.zoneID = r.zoneID ∧ r'.name = r.name then some new
      else rrset w r' := rfl

theorem towards_write {ip : GoString} (r : Record) (addr : Address) {w : World}
    {new : RRSet} (hnew : new.values = [ip]) :
    Towards ip w (write r addr new w) := by
  intro r'
  rw [rrset_write]
  by_cases hsame : r'.zoneID = r.zoneID ∧ r'.name = r.name
  · exact .inr ⟨new, by rw [rrset_write, if_pos hsame], hnew⟩
  · exact .inl (if_neg hsame)

/-- Only a record set that was overlooked before is so after a refresh. -/
theorem Overlooked.before {env : Env} {ip : GoString} {w w' : World}
    {r : Record} (h : Overlooked env ip w' r) (ht : Towards ip w w') :
    Overlooked env ip w r := by
  obtain ⟨htoken, found, hfound, hfirst, hmore⟩ := h
  cases ht r with
  | inl hkept => exact ⟨htoken, found, hkept ▸ hfound, hfirst, hmore⟩
  | inr hset =>
      obtain ⟨set, hset, hvalues⟩ := hset
      obtain rfl := Option.some.inj (hset.symm.trans hfound)
      exact absurd hvalues hmore

/-! ## The status of one record -/

/-- The statuses of records that a refresh takes for up to date. -/
def Settled (status : RecordStatus) : Prop :=
  status.result = resultUpdated ∨ status.result = resultUnchanged

instance (status : RecordStatus) : Decidable (Settled status) :=
  inferInstanceAs (Decidable (_ ∨ _))

theorem not_settled_failed {status : RecordStatus}
    (h : status.result = resultFailed) : ¬Settled status := by
  rw [Settled, h]
  decide

section Status

variable {env : Env} {r : Record} {address : Address} {ip : GoString}
  {o : Oracle Call} {s : Sys World}

theorem findResourceRecordSet_ok (r : Record) :
    (findResourceRecordSet r).wpOk o s fun found t =>
      t.state = s.state ∧ found = rrset t.state r := by
  refine Prog.wpOk_mapError (Prog.wpOk_query ?_)
  intro found hfound
  exact ⟨rfl, (Except.ok.inj hfound).symm⟩

theorem fetchRecord_ok (env : Env) (r : Record) :
    (fetchRecord env r).wpOk o s fun found t => t.state = s.state ∧
      found = rrset t.state r ∧ ∃ token, clientForRecord env r = .ok token := by
  refine Prog.wpOk_bind (Prog.wpOk_ofExcept fun token htoken => ?_)
  refine Prog.wpOk_mono (findResourceRecordSet_ok r) ?_
  rintro found t ⟨hstate, hfound⟩
  refine ⟨hstate, hfound, ?_⟩
  cases hclient : clientForRecord env r with
  | error err =>
      rw [hclient] at htoken
      cases htoken
  | ok token => exact ⟨token, rfl⟩

/-- A request that creates or sets the record set, and is answered. -/
private theorem written (address : Address) {c : Call} {f : GoError → GoError}
    {act : World → Except GoError Unit × World} (new : RRSet)
    (hnew : new.values = [ip])
    (hact : act s.state = (.ok (), write r address new s.state)) :
    ((Prog.call c .api act).mapError f).wpOk o s fun _ t =>
      Converged ip t.state r := by
  refine Prog.wpOk_mapError (Prog.wpOk_call ?_)
  intro _ _
  rw [hact]
  exact ⟨new, by rw [rrset_write, if_pos ⟨rfl, rfl⟩], hnew⟩

theorem upsertResourceRecordSet_ok :
    (upsertResourceRecordSet r address ip).wpOk o s fun _ t =>
      Converged ip t.state r := by
  refine Prog.wpOk_bind (Prog.wpOk_mapError
    (Prog.wpOk_mono (findResourceRecordSet_ok r) ?_))
  rintro found t ⟨_, hfound⟩
  cases found with
  | none =>
      refine written address ⟨r.ttl.toInt, [ip]⟩ rfl ?_
      simp [createRRSet, ← hfound]
  | some old =>
      refine written address ⟨old.ttl, [ip]⟩ rfl ?_
      simp [setRRSetRecords, ← hfound]

/-- A call of `UpdateRecord` that returns nil has replaced all values. -/
theorem updateRecord_ok (hip : address.ipv4 = some ip) :
    (updateRecord env r address).wpOk o s fun _ t =>
      Converged ip t.state r := by
  have hstring : address.ipv4.string = ip := by rw [hip]; rfl
  refine Prog.wpOk_bind_any fun _ t => ?_
  refine Prog.wpOk_bind (Prog.wpOk_mapError ?_)
  rw [hstring]
  refine Prog.wpOk_mono upsertResourceRecordSet_ok fun _ u hset => ?_
  refine Prog.wpOk_bind (Prog.wpOk_mapError (Prog.wpOk_mono
    (Prog.wpOk_of_keeps (updateRecordAddress_calm o address.id r.id)) ?_))
  intro _ v hcalm
  exact Prog.wpOk_pure (hset.towards (towards_of_zones hcalm.zones))

/-- A first value that is the address stands alone where nothing is
overlooked. -/
theorem converged_of_first {w : World}
    (htoken : ∃ token, clientForRecord env r = .ok token)
    (hfirst : ((rrset w r).bind fun found => found.values.head?) = some ip)
    (hseen : ¬Overlooked env ip w r) : Converged ip w r := by
  obtain ⟨found, hfound, hhead⟩ := Option.bind_eq_some_iff.mp hfirst
  refine ⟨found, hfound, ?_⟩
  by_contra hmore
  exact hseen ⟨htoken, found, hfound, hhead, hmore⟩

/-- A record that is said to be up to date has the address alone, unless its
record set is overlooked. -/
theorem refreshRecordStatus_ok (hip : address.ipv4 = some ip)
    (hseen : ¬Overlooked env ip s.state r) :
    (refreshRecordStatus env r address).wpOk o s fun status t =>
      Settled status → Converged ip t.state r := by
  unfold refreshRecordStatus
  rw [hip]
  refine Prog.wpOk_bind (Prog.wpOk_attempt ?_ fun err t =>
    Prog.wpOk_pure fun h => absurd h (not_settled_failed rfl))
  refine Prog.wpOk_mono (fetchRecord_ok env r) ?_
  rintro found t ⟨hstate, rfl, htoken⟩
  dsimp only
  split
  · next hfirst =>
    refine Prog.wpOk_pure fun _ => ?_
    exact converged_of_first htoken hfirst (hstate ▸ hseen)
  · refine Prog.wpOk_bind (Prog.wpOk_attempt ?_ fun err t =>
      Prog.wpOk_pure fun h => absurd h (not_settled_failed rfl))
    refine Prog.wpOk_mono (updateRecord_ok hip) fun _ u hset => ?_
    exact Prog.wpOk_pure fun _ => hset

/-- A record whose record set begins with the address: nothing is written. -/
theorem refreshRecordStatus_first (hip : address.ipv4 = some ip)
    (hfirst : ((rrset s.state r).bind fun found => found.values.head?) =
      some ip) :
    (refreshRecordStatus env r address).wpOk o s fun _ t =>
      t.state = s.state := by
  unfold refreshRecordStatus
  rw [hip]
  refine Prog.wpOk_bind (Prog.wpOk_of_wp ?_)
  rw [Prog.wp_attempt]
  refine Prog.wp_mono (fetchRecord_spec env r o s) ?_
  rintro (err | found) t ⟨hstate, hfound⟩ res hres
  · obtain rfl := Except.ok.inj hres
    exact Prog.wpOk_pure hstate
  · obtain rfl := Except.ok.inj hres
    obtain rfl := hfound found rfl
    dsimp only
    rw [if_pos hfirst]
    exact Prog.wpOk_pure hstate

/-- With a token, nothing but a request can fail. -/
theorem fetchRecord_quiet (htoken : ∃ token, clientForRecord env r = .ok token) :
    (fetchRecord env r).wp .quiet s fun res t =>
      res = .ok (rrset s.state r) ∧ t.state = s.state := by
  obtain ⟨token, htoken⟩ := htoken
  unfold fetchRecord
  rw [htoken]
  exact ⟨rfl, rfl⟩

/-- With a token and an answer, it is said to be unchanged. -/
theorem refreshRecordStatus_unchanged (hip : address.ipv4 = some ip)
    (htoken : ∃ token, clientForRecord env r = .ok token)
    (hfirst : ((rrset s.state r).bind fun found => found.values.head?) =
      some ip) :
    (refreshRecordStatus env r address).wpOk .quiet s fun status _ =>
      status.result = resultUnchanged := by
  unfold refreshRecordStatus
  rw [hip]
  refine Prog.wpOk_bind (Prog.wpOk_of_wp ?_)
  rw [Prog.wp_attempt]
  refine Prog.wp_mono (fetchRecord_quiet htoken) ?_
  rintro res t ⟨rfl, _⟩ found hfound
  obtain rfl := Except.ok.inj hfound
  dsimp only
  rw [if_pos hfirst]
  exact Prog.wpOk_pure rfl

end Status

/-! ## The pass -/

/-- The loops of `Refresh` and the report, returning what was reported. -/
def refreshReport (env : Env) (address : Address) (records : List Record)
    (report : Report) : Handler Report := do
  let report ← records.foldlM (refreshOne env address) report
  let report ← records.foldlM (certificateOne env) report
  finishReport report
  pure report

/-- The report a pass starts from, once the address is stored. -/
def firstReport (address : Address) : Report :=
  { Report.zero with
    currentIPv4 := address.ipv4.string, currentIPv6 := address.ipv6.string }

/-- **The pass** is `refreshReport`, of which it returns nothing. -/
theorem refreshAll_eq (env : Env) (address : Address) :
    refreshAll env address = (do
      match ← ((listRecords env).mapError .wrap).attempt with
      | .error err =>
          giveUp env (firstReport address) err "failed to fetch DNS records"
      | .ok records => do
          let _ ← refreshReport env address records (firstReport address)
          pure ()) := by
  unfold refreshAll
  refine bind_congr fun listed => ?_
  cases listed with
  | error err => rfl
  | ok records =>
      simp only [refreshListed, refreshReport, bind_assoc, pure_bind]
      refine bind_congr fun report => bind_congr fun report => ?_
      exact (bind_pure (finishReport report)).symm

/-- The records a pass reports on, in its order. -/
def reported (records : List Record) : List Record :=
  records.filter fun r => recordDoesDDNS r.purpose

section Loops

variable {R : World → World → Prop} (hR : Tracks R) (env : Env)
  {address : Address} {o : Oracle Call}

theorem countResult_ok (record : Record) (result : GoString)
    (report : Report) (s : Sys World) :
    (countResult env record result report).wpOk o s fun report' _ =>
      report'.records = report.records := by
  unfold countResult
  split
  · exact Prog.wpOk_bind_any fun _ _ => Prog.wpOk_pure rfl
  · split
    · exact Prog.wpOk_pure rfl
    · exact Prog.wpOk_pure rfl

include hR

theorem countResult_tracks (record : Record) (result : GoString)
    (report : Report) :
    Prog.Keeps o R (countResult env record result report) :=
  countResult_keeps hR.refl hR.trans env (fireTasks_tracks hR env _ _ _) result
    report

variable {P : Record → RecordStatus → World → Prop}
  (hstable : ∀ r status w w', P r status w → R w w' → P r status w')
include hstable

/-- One record of the first loop. -/
theorem refreshOne_ok {r : Record} {s : Sys World}
    (hstatus : recordDoesDDNS r.purpose = true →
      (refreshRecordStatus env r address).wpOk o s fun status t =>
        R s.state t.state ∧ P r status t.state) (report : Report) :
    (refreshOne env address report r).wpOk o s fun report' t =>
      R s.state t.state ∧ ∃ statuses,
        report'.records = report.records ++ statuses ∧
          List.Forall₂ (fun r status => P r status t.state) (reported [r])
            statuses := by
  unfold refreshOne
  by_cases hddns : recordDoesDDNS r.purpose = true
  · have hone : reported [r] = [r] := List.filter_cons_of_pos hddns
    rw [if_pos hddns, hone]
    refine Prog.wpOk_bind (Prog.wpOk_mono (hstatus hddns) ?_)
    rintro status t ⟨hmove, hP⟩
    refine Prog.wpOk_bind (Prog.wpOk_mono (Prog.wpOk_and
      (countResult_ok env r status.result report t)
      (Prog.wpOk_of_keeps (countResult_tracks hR env r status.result report)))
      ?_)
    rintro report' u ⟨hrecords, hcount⟩
    refine Prog.wpOk_pure ⟨hR.trans _ _ _ hmove hcount, [status], ?_, ?_⟩
    · rw [hrecords]
    · exact .cons (hstable r status _ _ hP hcount) .nil
  · have hnone : reported [r] = [] := List.filter_cons_of_neg hddns
    rw [if_neg hddns, hnone]
    exact Prog.wpOk_pure ⟨hR.refl _, [], by simp, .nil⟩

/-- **The first loop**: each record gets its status, and what is known of a
status stays true. -/
theorem refreshLoop_ok {w₀ : World} :
    ∀ (records : List Record) (report : Report) (s : Sys World),
      (∀ r ∈ records, recordDoesDDNS r.purpose = true →
        ∀ s : Sys World, R w₀ s.state →
          (refreshRecordStatus env r address).wpOk o s fun status t =>
            R s.state t.state ∧ P r status t.state) →
      R w₀ s.state →
        (records.foldlM (refreshOne env address) report).wpOk o s
          fun report' t => R s.state t.state ∧ ∃ statuses,
            report'.records = report.records ++ statuses ∧
              List.Forall₂ (fun r status => P r status t.state)
                (reported records) statuses := by
  intro records
  induction records with
  | nil =>
      intro report s _ hs
      exact Prog.wpOk_pure ⟨hR.refl _, [], by simp, .nil⟩
  | cons r records ih =>
      intro report s hstatus hs
      rw [List.foldlM_cons]
      refine Prog.wpOk_bind (Prog.wpOk_mono (refreshOne_ok hR env hstable
        (fun hddns => hstatus r List.mem_cons_self hddns s hs) report) ?_)
      rintro report' t ⟨hmove, statuses, hrecords, hone⟩
      refine Prog.wpOk_mono (ih report' t (fun r' hr' =>
        hstatus r' (List.mem_cons_of_mem r hr'))
        (hR.trans _ _ _ hs hmove)) ?_
      rintro report'' u ⟨hmore, statuses', hrecords', hrest⟩
      refine ⟨hR.trans _ _ _ hmove hmore, statuses ++ statuses', ?_, ?_⟩
      · rw [hrecords', hrecords, List.append_assoc]
      · have hsplit : reported (r :: records) =
            reported [r] ++ reported records :=
          List.filter_append [r] records
        rw [hsplit]
        refine List.rel_append ?_ hrest
        exact hone.imp fun r' status hP => hstable r' status _ _ hP hmore

/-- The whole pass: the second loop and the report leave the statuses
alone. -/
theorem refreshReport_ok {w₀ : World} (records : List Record)
    (report : Report) (s : Sys World)
    (hstatus : ∀ r ∈ records, recordDoesDDNS r.purpose = true →
      ∀ s : Sys World, R w₀ s.state →
        (refreshRecordStatus env r address).wpOk o s fun status t =>
          R s.state t.state ∧ P r status t.state)
    (hs : R w₀ s.state) :
    (refreshReport env address records report).wpOk o s fun report' t =>
      R s.state t.state ∧ ∃ statuses,
        report'.records = report.records ++ statuses ∧
          List.Forall₂ (fun r status => P r status t.state)
            (reported records) statuses := by
  refine Prog.wpOk_bind (Prog.wpOk_mono
    (refreshLoop_ok hR env hstable records report s hstatus hs) ?_)
  rintro report₁ t ⟨hmove, statuses, hrecords, hall⟩
  have hloop : (records.foldlM (certificateOne env) report₁).wpOk o t
      fun report₂ u => R t.state u.state ∧ report₂.records = report₁.records := by
    refine Prog.wpOk_foldlM records report₁ t ?_ ⟨hR.refl _, rfl⟩
    rintro report₂ r u _ ⟨hu, hkept⟩
    have hcalm := Prog.wpOk_of_keeps (s := u)
      ((certificateOne_calm o env report₂ r).mono hR.calm)
    have hrecords : (certificateOne env report₂ r).wpOk o u fun report₃ _ =>
        report₃.records = report₂.records := by
      unfold certificateOne
      split
      · exact Prog.wpOk_bind_any fun _ _ => Prog.wpOk_pure rfl
      · exact Prog.wpOk_pure rfl
    refine Prog.wpOk_mono (Prog.wpOk_and hcalm hrecords) ?_
    rintro report₃ v ⟨hv, hsame⟩
    exact ⟨hR.trans _ _ _ hu hv, hsame.trans hkept⟩
  refine Prog.wpOk_bind (Prog.wpOk_mono hloop ?_)
  rintro report₂ u ⟨hu, hkept⟩
  refine Prog.wpOk_bind (Prog.wpOk_mono (Prog.wpOk_of_keeps
    ((finishReport_calm o report₂).mono hR.calm)) ?_)
  intro _ v hv
  have hlate := hR.trans _ _ _ hu hv
  refine Prog.wpOk_pure ⟨hR.trans _ _ _ hmove hlate, statuses, ?_, ?_⟩
  · rw [hkept, hrecords]
  · exact hall.imp fun r status hP => hstable r status _ _ hP hlate

end Loops

/-! ## A pass always reports -/

section Reports

variable (o : Oracle Call) (env : Env)

theorem runTask_succeeds (task : Task) (event : Trigger)
    (job : Option Int) : Prog.Succeeds o (runTask env task event job) := by
  refine .bind (.attempt _) fun created => .bind ?_ fun outcome =>
    .bind (.attempt _) fun _ => .ite (.pure _) ?_
  · exact .bind (.modify _) fun _ => .bind (.attempt _) fun _ => .pure _
  · exact .bind (.attempt _) fun _ => .pure _

theorem fireTasks_succeeds (recordID : Int) (event : Trigger)
    (job : Option Int) :
    Prog.Succeeds o (fireTasks env recordID event job) := by
  refine .bind (.attempt _) fun listed => ?_
  cases listed with
  | error err => exact .pure _
  | ok tasks =>
      exact .forM (fun task =>
        .ite (runTask_succeeds o env task event job) (.pure _)) tasks

theorem refreshRecordStatus_succeeds (r : Record) (address : Address) :
    Prog.Succeeds o (refreshRecordStatus env r address) := by
  unfold refreshRecordStatus
  cases address.ipv4 with
  | none => exact .pure _
  | some ip =>
      refine .bind (.attempt _) fun found => ?_
      cases found with
      | error err => exact .pure _
      | ok found =>
          refine .ite (.pure _) (.bind (.attempt _) fun updated => ?_)
          cases updated with
          | error err => exact .pure _
          | ok _ => exact .pure _

theorem refreshOne_succeeds (address : Address) (report : Report)
    (r : Record) : Prog.Succeeds o (refreshOne env address report r) := by
  refine .ite (.bind (refreshRecordStatus_succeeds o env r address)
    fun status => .bind ?_ fun _ => .pure _) (.pure _)
  refine .ite ?_ (.ite (.pure _) (.pure _))
  exact .bind (fireTasks_succeeds o env _ _ _) fun _ => .pure _

theorem refreshReport_succeeds (address : Address) (records : List Record)
    (report : Report) :
    Prog.Succeeds o (refreshReport env address records report) := by
  refine .bind (.foldlM (refreshOne_succeeds o env address) _ _) fun _ =>
    .bind (.foldlM (fun report r => ?_) _ _) fun report =>
      .bind ?_ fun _ => .pure _
  · exact .ite (.bind (.attempt _) fun _ => .pure _) (.pure _)
  · exact .ite (.modify _) (.ite (.modify _) (.pure _))

end Reports

/-! ## The two directions -/

section Exact

variable {env : Env} {address : Address} {ip : GoString} {s : Sys World}

/-- A pass that overlooks nothing converges, whatever fails. -/
theorem refreshReport_converges (hip : address.ipv4 = some ip)
    {records : List Record}
    (hseen : ∀ r ∈ reported records, ¬Overlooked env ip s.state r)
    (o : Oracle Call) :
    (refreshReport env address records (firstReport address)).wp o s
      fun res t => ∃ report, res = .ok report ∧
        List.Forall₂ (fun r status => Settled status → Converged ip t.state r)
          (reported records) report.records := by
  have hR := towards_tracks ip
  have hstatus : ∀ r ∈ records, recordDoesDDNS r.purpose = true →
      ∀ s' : Sys World, Towards ip s.state s'.state →
        (refreshRecordStatus env r address).wpOk o s' fun status t =>
          Towards ip s'.state t.state ∧
            (Settled status → Converged ip t.state r) := by
    intro r hr hddns s' hs'
    have hkeeps : Prog.Keeps o (Towards ip) (refreshRecordStatus env r address) :=
      refreshRecordStatus_tracks hR env fun ip' hip' w new hnew =>
        towards_write r address (by
          obtain rfl := Option.some.inj (hip.symm.trans hip')
          exact hnew)
    have hmem : r ∈ reported records := List.mem_filter.mpr ⟨hr, hddns⟩
    exact Prog.wpOk_and (Prog.wpOk_of_keeps hkeeps)
      (refreshRecordStatus_ok hip fun h => hseen r hmem (h.before hs'))
  refine (refreshReport_succeeds o env address records _).wp
    (Prog.wpOk_mono (refreshReport_ok
      (P := fun r status w => Settled status → Converged ip w r) hR env ?_
      records (firstReport address) s hstatus (hR.refl _)) ?_)
  · exact fun r status w w' h ht hsettled => (h hsettled).towards ht
  · rintro report t ⟨_, statuses, hrecords, hall⟩
    rw [hrecords]
    exact hall

/-- The record set of `r` stays what it is once it is `found`. -/
def Stuck (r : Record) (found : RRSet) (w w' : World) : Prop :=
  rrset w r = some found → rrset w' r = some found

theorem stuck_tracks (r : Record) (found : RRSet) :
    Tracks (Stuck r found) where
  refl := fun _ => id
  trans := fun _ _ _ h h' => h' ∘ h
  calm := fun w w' h => by
    unfold Stuck rrset
    rw [h.zones]
    exact id
  saved := by
    intro ipv4 ipv6 w r' w' h
    rw [h.frame]
    exact id
  ran := fun _ _ _ => id
  result := fun _ _ _ _ _ => id

/-- A pass never writes an overlooked record set. -/
theorem refreshRecordStatus_stuck (hip : address.ipv4 = some ip)
    {r₀ : Record} {found : RRSet} (hfirst : found.values.head? = some ip)
    (r : Record) (o : Oracle Call) {s' : Sys World}
    (hs' : rrset s'.state r₀ = some found) :
    (refreshRecordStatus env r address).wpOk o s' fun _ t =>
      Stuck r₀ found s'.state t.state := by
  by_cases hsame : r₀.zoneID = r.zoneID ∧ r₀.name = r.name
  · have hrrset : rrset s'.state r = some found := by
      rw [← hs', rrset, rrset, hsame.1, hsame.2]
    refine Prog.wpOk_mono (refreshRecordStatus_first hip (by
      rw [hrrset]
      exact hfirst)) fun _ t hstate => ?_
    rw [hstate]
    exact id
  · refine Prog.wpOk_of_keeps (refreshRecordStatus_tracks
      (stuck_tracks r₀ found) env fun _ _ w new _ => ?_)
    intro hw
    rw [rrset_write, if_neg hsame]
    exact hw

/-- Corresponding entries of two lists of statuses. -/
private theorem exists_of_forall₂ {α β : Type} {P Q : α → β → Prop}
    {as : List α} {bs : List β} (hP : List.Forall₂ P as bs)
    (hQ : List.Forall₂ Q as bs) {a : α} (ha : a ∈ as) :
    ∃ b, P a b ∧ Q a b := by
  induction hP with
  | nil => cases ha
  | cons hab _ ih =>
      cases hQ with
      | cons hab' hQ' =>
          cases List.mem_cons.mp ha with
          | inl heq => exact ⟨_, heq ▸ hab, heq ▸ hab'⟩
          | inr ha' => exact ih hQ' ha'

/-- A pass in which nothing fails reports an overlooked record set as
unchanged. -/
theorem refreshReport_overlooks (hip : address.ipv4 = some ip)
    {records : List Record} {r₀ : Record} (hr₀ : r₀ ∈ reported records)
    (hover : Overlooked env ip s.state r₀) :
    (refreshReport env address records (firstReport address)).wp .quiet s
      fun res t => ∃ report, res = .ok report ∧ ¬Converged ip t.state r₀ ∧
        List.Forall₂ (fun r status => r = r₀ → Settled status)
          (reported records) report.records := by
  obtain ⟨htoken, found, hfound, hfirst, hmore⟩ := hover
  have hR := stuck_tracks r₀ found
  have hstatus : ∀ r ∈ records, recordDoesDDNS r.purpose = true →
      ∀ s' : Sys World, Stuck r₀ found s.state s'.state →
        (refreshRecordStatus env r address).wpOk .quiet s' fun status t =>
          Stuck r₀ found s'.state t.state ∧ (r = r₀ → Settled status) := by
    intro r _ _ s' hs'
    refine Prog.wpOk_and
      (refreshRecordStatus_stuck hip hfirst r .quiet (hs' hfound)) ?_
    by_cases heq : r = r₀
    · subst heq
      have hhead : ((rrset s'.state r).bind fun found =>
          found.values.head?) = some ip := by
        rw [hs' hfound]
        exact hfirst
      exact Prog.wpOk_mono (refreshRecordStatus_unchanged hip htoken hhead)
        fun status _ h _ => .inr h
    · exact fun _ _ _ h => absurd h heq
  refine (refreshReport_succeeds .quiet env address records _).wp
    (Prog.wpOk_mono (refreshReport_ok
      (P := fun r status _ => r = r₀ → Settled status) hR env
      (fun _ _ _ _ h _ => h) records (firstReport address) s hstatus
      (hR.refl _)) ?_)
  rintro report t ⟨hstuck, statuses, hrecords, hall⟩
  refine ⟨?_, hrecords ▸ hall⟩
  rintro ⟨found', hfound', hvalues⟩
  obtain rfl := Option.some.inj (hfound'.symm.trans (hstuck hfound))
  exact hmore hvalues

/-- `dns.RefreshRecord` of a DDNS record, once the address has been read. -/
theorem refreshRecord_current {r : Record}
    (hddns : recordDoesDDNS r.purpose = true) (hip : address.ipv4 = some ip)
    {o : Oracle Call}
    (hcurrent : currentAddress s.state.addresses = some address)
    {Q : Except GoError Record → Sys World → Prop}
    (hread : ∀ t : Sys World, t.state = s.state →
      (applyCurrent env r address ip).wp o t Q)
    (hfail : ∀ err (t : Sys World), o ≠ .quiet → Q (.error err) t) :
    (refreshRecord env r).wp o s Q := by
  unfold refreshRecord
  rw [if_pos hddns, Prog.wp_bind, Prog.wp_mapError]
  unfold getCurrentAddress Prog.query
  refine Prog.wp_call_of ?_ (fun ho => hfail _ _ ?_) (fun ho => hfail _ _ ?_)
  · simp only [hcurrent, Except.mapError, hip]
    exact hread _ rfl
  · rintro rfl
    cases ho
  · rintro rfl
    cases ho

theorem applyCurrent_converges (hip : address.ipv4 = some ip) {r : Record}
    (hseen : ¬Overlooked env ip s.state r) (o : Oracle Call) :
    (applyCurrent env r address ip).wpOk o s fun _ t =>
      Converged ip t.state r := by
  refine Prog.wpOk_bind (Prog.wpOk_mono (fetchRecord_ok env r) ?_)
  rintro found t ⟨hstate, rfl, htoken⟩
  split
  · next hfirst =>
    exact Prog.wpOk_pure (converged_of_first htoken hfirst (hstate ▸ hseen))
  · refine Prog.wpOk_bind (Prog.wpOk_mono (updateRecord_ok hip) ?_)
    intro r' u hset
    refine Prog.wpOk_bind (Prog.wpOk_mono (Prog.wpOk_of_keeps
      (fireTasks_tracks (towards_tracks ip) env r'.id triggerIP none)) ?_)
    exact fun _ v hmove => Prog.wpOk_pure (hset.towards hmove)

end Exact

/-- Where nothing fails, nothing is written for a record whose record set
begins with the address. -/
theorem refreshRecord_unchanged {env : Env} {address : Address} {ip : GoString}
    {r : Record} {s : Sys World} (hddns : recordDoesDDNS r.purpose = true)
    (hip : address.ipv4 = some ip)
    (hcurrent : currentAddress s.state.addresses = some address)
    (htoken : ∃ token, clientForRecord env r = .ok token)
    (hfirst : ((rrset s.state r).bind fun found =>
      found.values.head?) = some ip) :
    (refreshRecord env r).wp .quiet s fun res t =>
      res = .ok r ∧ t.state = s.state := by
  refine refreshRecord_current hddns hip hcurrent (fun t hstate => ?_)
    fun _ _ hne => absurd rfl hne
  unfold applyCurrent
  rw [Prog.wp_bind]
  refine Prog.wp_mono (fetchRecord_quiet htoken) ?_
  rintro res u ⟨rfl, hu⟩
  dsimp only
  rw [hstate, if_pos hfirst]
  exact ⟨rfl, hu.trans hstate⟩

/-- **Where a refresh converges.**  Every pass, whatever fails in it, leaves
the records it reports as updated or unchanged with the current address alone
if and only if no reported record whose token can be decrypted has an A record
set that begins with the address and goes on; the same for
`dns.RefreshRecord`. -/
theorem refresh_converges_iff (env : Env) (address : Address) (ip : GoString)
    (hip : address.ipv4 = some ip) (s : Sys World) :
    (∀ records : List Record,
      (∀ o, (refreshReport env address records (firstReport address)).wp o s
        fun res t => ∃ report, res = .ok report ∧
          List.Forall₂
            (fun r status => Settled status → Converged ip t.state r)
            (reported records) report.records) ↔
        ∀ r ∈ reported records, ¬Overlooked env ip s.state r) ∧
      ∀ r : Record, recordDoesDDNS r.purpose = true →
        currentAddress s.state.addresses = some address →
          ((∀ o, (refreshRecord env r).wpOk o s fun _ t =>
            Converged ip t.state r) ↔ ¬Overlooked env ip s.state r) := by
  refine ⟨fun records => ⟨fun hall r₀ hr₀ hover => ?_, fun hseen o =>
    refreshReport_converges hip hseen o⟩, fun r hddns hcurrent =>
      ⟨fun hall hover => ?_, fun hseen o => ?_⟩⟩
  · obtain ⟨report, hreport, hconverges⟩ := hall .quiet
    obtain ⟨report', hreport', hleft, hsettled⟩ :=
      refreshReport_overlooks hip hr₀ hover
    obtain rfl := Except.ok.inj (hreport.symm.trans hreport')
    obtain ⟨status, hstatus, hsettled⟩ :=
      exists_of_forall₂ hconverges hsettled hr₀
    exact hleft (hstatus (hsettled rfl))
  · obtain ⟨htoken, found, hfound, hfirst, hmore⟩ := hover
    have hhead : ((rrset s.state r).bind fun found =>
        found.values.head?) = some ip := by
      rw [hfound]
      exact hfirst
    have hquiet := refreshRecord_unchanged hddns hip hcurrent htoken hhead
    obtain ⟨hres, hstate⟩ := hquiet
    obtain ⟨found', hfound', hvalues⟩ := hall .quiet r _ (Prod.ext hres rfl)
    rw [hstate, hfound] at hfound'
    obtain rfl := Option.some.inj hfound'
    exact hmore hvalues
  · refine Prog.wpOk_of_wp (refreshRecord_current hddns hip hcurrent
      (fun t hstate => ?_) fun _ _ _ => nofun)
    intro r' hr'
    exact applyCurrent_converges hip (hstate ▸ hseen) o r' _ (Prod.ext hr' rfl)

/-- The current address and a record. -/
private def home : Address := ⟨1, some "192.0.2.1", none, true⟩

private def www : Record :=
  ⟨1, "token", 7, "example.org", "www", 60, none, purposeDDNS, false, none⟩

/-- The record and the address are stored; the zones are as given. -/
private def stored (zones : Zones) : World :=
  { World.init zones with
    addresses := Table.empty.insert fun id => { home with id := id }
    records := Table.empty.insert fun id => { www with id := id } }

theorem refresh_converges_iff_absent :
    (refreshReport Env.sample home [www] (firstReport home)).wp .quiet
        ⟨stored fun _ _ => none, 0⟩ (fun res t => ∃ report, res = .ok report ∧
          List.Forall₂ (fun r status =>
            Settled status → Converged "192.0.2.1" t.state r)
            (reported [www]) report.records) ∧
      (refreshRecord Env.sample www).wpOk .quiet ⟨stored fun _ _ => none, 0⟩
        fun _ t => Converged "192.0.2.1" t.state www := by
  have hnone : ∀ r : Record, ¬Overlooked Env.sample "192.0.2.1"
      (stored fun _ _ => none) r := by
    rintro r ⟨_, found, hfound, _⟩
    cases hfound
  have hiff := refresh_converges_iff Env.sample home "192.0.2.1" rfl
    ⟨stored fun _ _ => none, 0⟩
  exact ⟨(hiff.1 [www]).mpr (fun r _ => hnone r) .quiet,
    (hiff.2 www (by decide) (by decide)).mpr (hnone www) .quiet⟩

/-- The current address and an older one beside it. -/
private def doubled : RRSet := ⟨60, ["192.0.2.1", "198.51.100.7"]⟩

/-- A record set that begins with the current address is reported as unchanged
and keeps its other values. -/
theorem other_values_survive :
    (∃ report, (refreshReport Env.sample home [www] (firstReport home) .quiet
        ⟨stored fun _ _ => some doubled, 0⟩).1 = .ok report ∧
      report.records.map RecordStatus.result = [resultUnchanged]) ∧
    rrset (refreshReport Env.sample home [www] (firstReport home) .quiet
      ⟨stored fun _ _ => some doubled, 0⟩).2.state www = some doubled ∧
    (refreshRecord Env.sample www .quiet
      ⟨stored fun _ _ => some doubled, 0⟩).1 = .ok www ∧
    rrset (refreshRecord Env.sample www .quiet
      ⟨stored fun _ _ => some doubled, 0⟩).2.state www = some doubled := by
  have hsome : (refreshReport Env.sample home [www] (firstReport home) .quiet
      ⟨stored fun _ _ => some doubled, 0⟩).1.toOption.isSome = true := by
    decide +kernel
  have hend : ∀ report ∈ (refreshReport Env.sample home [www]
      (firstReport home) .quiet
        ⟨stored fun _ _ => some doubled, 0⟩).1.toOption,
      (refreshReport Env.sample home [www] (firstReport home) .quiet
        ⟨stored fun _ _ => some doubled, 0⟩).1 = .ok report ∧
      report.records.map RecordStatus.result = [resultUnchanged] := by
    decide +kernel
  obtain ⟨report, hreport⟩ := Option.isSome_iff_exists.mp hsome
  exact ⟨⟨report, hend report hreport⟩, by decide +kernel, by decide +kernel,
    by decide +kernel⟩

end Hdns.Ports.Convergence

import Hdns.Ports.CertificateEdits
import Hdns.Ports.Convergence

/-!
# What a refresh reports

`Refresh` goes through the listed records twice.  The first loop brings the
DDNS records up to date and counts how that went; the second one looks up the
certificate rows.  No error ends a loop.

The second loop means to report "not issued" for a record without a row.  The
generated query returns a pointer to the zero struct beside its error, so the
test for nil never succeeds.

## Main results

* `Applies` — what the processing of one record may change.
* `refreshLoop_processed` — the first loop processes every DDNS record, from
  the state its predecessors leave, and counts the results.
* `refresh_report_accurate_iff` — the certificate rows and answers for which
  the report is accurate.
-/

namespace Hdns.Ports.RefreshReports

open Hdns.Verified
open Hdns.Verified.GoString
open Hdns.Ports.Schema
open Hdns.Ports.UpdateAddress
open Hdns.Ports.Hetzner
open Hdns.Ports.Tasks
open Hdns.Ports.Service
open Hdns.Ports.Operations
open Hdns.Ports.CertificateEdits
open Hdns.Ports.Convergence

/-! ## What the processing of a record may change -/

/-- The columns and record sets after `r` has been processed with an address:
its `address_id` may have become the id of the address, its A record set the
address alone. -/
structure Applies (r : Record) (address : Address) (w w' : World) : Prop where
  addresses : w'.addresses = w.addresses
  certificates : w'.certificates = w.certificates
  recorded : ∀ id, w'.records.column Record.addressID id =
      w.records.column Record.addressID id ∨
    id = r.id ∧ w'.records.column Record.addressID id = some (some address.id)
  carried : ∀ r', rrset w' r' = rrset w r' ∨
    (r'.zoneID = r.zoneID ∧ r'.name = r.name) ∧
      Converged address.ipv4.string w' r'

section Applies

variable {r : Record} {address : Address} (o : Oracle Call) (env : Env)

/-- Changes that are none of the record's columns or of the zones. -/
theorem Applies.of_frame {w w' : World}
    (haddresses : w'.addresses = w.addresses)
    (hcertificates : w'.certificates = w.certificates)
    (hrecords : w'.records = w.records) (hzones : w'.zones = w.zones) :
    Applies r address w w' where
  addresses := haddresses
  certificates := hcertificates
  recorded := fun id => .inl (by rw [hrecords])
  carried := fun r' => .inl (by rw [rrset, rrset, hzones])

theorem Applies.refl (w : World) : Applies r address w w :=
  .of_frame rfl rfl rfl rfl

theorem Applies.trans (w₁ w₂ w₃ : World) (h : Applies r address w₁ w₂)
    (h' : Applies r address w₂ w₃) : Applies r address w₁ w₃ where
  addresses := h'.addresses.trans h.addresses
  certificates := h'.certificates.trans h.certificates
  recorded := by
    intro id
    rcases h'.recorded id with hkept | hset
    · rw [hkept]
      exact h.recorded id
    · exact .inr hset
  carried := by
    intro r'
    rcases h'.carried r' with hkept | hset
    · rcases h.carried r' with hkept' | ⟨hkey, found, hfound, hvalues⟩
      · exact .inl (hkept.trans hkept')
      · exact .inr ⟨hkey, found, hkept.trans hfound, hvalues⟩
    · exact .inr hset

theorem applies_write {w : World} {new : RRSet}
    (hnew : new.values = [address.ipv4.string]) :
    Applies r address w (write r address new w) where
  addresses := rfl
  certificates := rfl
  recorded := fun _ => .inl rfl
  carried := by
    intro r'
    by_cases hkey : r'.zoneID = r.zoneID ∧ r'.name = r.name
    · exact .inr ⟨hkey, new, by rw [rrset_write, if_pos hkey], hnew⟩
    · exact .inl (by rw [rrset_write, if_neg hkey])

/-- The table after the row of a record has been given an address. -/
private def showing (t : Table Record) (recordID addressID : Int) :
    Table Record :=
  t.updateWhere (fun r => r.id == recordID)
    (fun r => { r with addressID := some addressID })
    (Record.key_addressed addressID)

private theorem column_showing (t : Table Record)
    (recordID addressID id : Int) :
    (showing t recordID addressID).column Record.addressID id =
        t.column Record.addressID id ∨
      id = recordID ∧
        (showing t recordID addressID).column Record.addressID id =
          some (some addressID) := by
  have hfind : (showing t recordID addressID).find? id =
      (t.find? id).map fun r =>
        if r.id == recordID then { r with addressID := some addressID }
        else r :=
    Table.find?_updateWhere t _ _ _ id
  rw [Table.column, Table.column, hfind]
  cases hrow : t.find? id with
  | none => exact .inl rfl
  | some row =>
      have hkey : row.id = id := Table.find?_key hrow
      by_cases hid : id = recordID
      · exact .inr ⟨hid, by simp [hkey, hid]⟩
      · exact .inl (by simp [hkey, hid])

theorem updateRecordAddress_applies :
    Prog.Keeps o (Applies r address) (updateRecordAddress address.id r.id) := by
  refine .call Applies.refl fun w => ?_
  split
  · exact Applies.refl w
  · exact ⟨rfl, rfl, column_showing w.records r.id address.id,
      fun _ => .inl rfl⟩

theorem updateRecord_applies :
    Prog.Keeps o (Applies r address) (updateRecord env r address) :=
  updateRecord_keeps Applies.refl Applies.trans env
    (fun _ _ hnew => applies_write hnew) (updateRecordAddress_applies o)

theorem refreshRecordStatus_applies :
    Prog.Keeps o (Applies r address) (refreshRecordStatus env r address) :=
  refreshRecordStatus_keeps Applies.refl Applies.trans env fun _ _ =>
    updateRecord_applies o env

theorem fireTasks_applies (recordID : Int) (event : Trigger)
    (job : Option Int) :
    Prog.Keeps o (Applies r address) (fireTasks env recordID event job) :=
  (fireTasks_runs o env recordID event job).mono fun w w' h =>
    .of_frame (by rw [h.frame]) (by rw [h.frame]) (by rw [h.frame])
      (by rw [h.frame])

theorem countResult_applies (record : Record) (result : GoString)
    (report : Report) :
    Prog.Keeps o (Applies r address)
      (countResult env record result report) :=
  countResult_keeps Applies.refl Applies.trans env
    (fireTasks_applies o env _ _ _) result report

end Applies

/-! ## The first loop -/

section FirstLoop

variable (env : Env) (address : Address) (o : Oracle Call)

/-- The records are processed one after the other, whatever becomes of them:
each has the status its refresh returns in the state its predecessors have
left, and its tasks are fired as the status says. -/
inductive Processed : Sys World → List Record → List RecordStatus →
    Sys World → Prop
  | nil (s) : Processed s [] [] s
  | cons {s t u v : Sys World} {r : Record} {records : List Record}
      {status : RecordStatus} {statuses : List RecordStatus}
      {report report' : Report} :
      refreshRecordStatus env r address o s = (.ok status, t) →
      countResult env r status.result report o t = (.ok report', u) →
      Processed u records statuses v →
      Processed s (r :: records) (status :: statuses) v

variable {env address o}

theorem Processed.append {s t u : Sys World} {records records' : List Record}
    {statuses statuses' : List RecordStatus}
    (h : Processed env address o s records statuses t)
    (h' : Processed env address o t records' statuses' u) :
    Processed env address o s (records ++ records') (statuses ++ statuses')
      u := by
  induction h with
  | nil _ => exact h'
  | cons hstatus hcount _ ih => exact .cons hstatus hcount (ih h')

/-- A status tells whose it is. -/
def Names (r : Record) (status : RecordStatus) : Prop :=
  status.domain = r.domain ∧ status.name = r.name ∧ status.type = lit "A"

private theorem results_distinct :
    (resultUpdated ≠ resultFailed ∧ resultFailed ≠ resultUpdated) ∧
      (resultUpdated ≠ resultUnchanged ∧ resultUnchanged ≠ resultUpdated) ∧
      resultFailed ≠ resultUnchanged ∧ resultUnchanged ≠ resultFailed := by
  decide

/-- The results of a pass. -/
def Graded (status : RecordStatus) : Prop :=
  status.result = resultUpdated ∨ status.result = resultFailed ∨
    status.result = resultUnchanged

theorem refreshRecordStatus_names (r : Record) (s : Sys World) :
    (refreshRecordStatus env r address).wpOk o s fun status _ =>
      Names r status ∧ Graded status := by
  unfold refreshRecordStatus
  cases address.ipv4 with
  | none => exact Prog.wpOk_pure ⟨⟨rfl, rfl, rfl⟩, .inr (.inl rfl)⟩
  | some ip =>
      refine Prog.wpOk_bind_any fun found t => ?_
      cases found with
      | error err => exact Prog.wpOk_pure ⟨⟨rfl, rfl, rfl⟩, .inr (.inl rfl)⟩
      | ok found =>
          dsimp only
          split
          · exact Prog.wpOk_pure ⟨⟨rfl, rfl, rfl⟩, .inr (.inr rfl)⟩
          · refine Prog.wpOk_bind_any fun updated u => ?_
            cases updated with
            | error err =>
                exact Prog.wpOk_pure ⟨⟨rfl, rfl, rfl⟩, .inr (.inl rfl)⟩
            | ok _ => exact Prog.wpOk_pure ⟨⟨rfl, rfl, rfl⟩, .inl rfl⟩

theorem Processed.names {s t : Sys World} {records : List Record}
    {statuses : List RecordStatus}
    (h : Processed env address o s records statuses t) :
    List.Forall₂ Names records statuses ∧
      ∀ status ∈ statuses, Graded status := by
  induction h with
  | nil s => exact ⟨.nil, nofun⟩
  | cons hstatus _ _ ih =>
      obtain ⟨hnames, hgraded⟩ := refreshRecordStatus_names _ _ _ _ hstatus
      exact ⟨.cons hnames ih.1, List.forall_mem_cons.mpr ⟨hgraded, ih.2⟩⟩

/-- The counts of the report are those of its entries. -/
structure Counted (report : Report) : Prop where
  updated : report.updatedCount =
    report.records.countP (·.result = resultUpdated)
  failed : report.failedCount =
    report.records.countP (·.result = resultFailed)
  unchanged : report.unchangedCount =
    report.records.countP (·.result = resultUnchanged)

/-- Every entry is counted once. -/
theorem Counted.total {report : Report} (h : Counted report)
    (hgraded : ∀ status ∈ report.records, Graded status) :
    report.updatedCount + report.failedCount + report.unchangedCount =
      report.records.length := by
  rw [h.updated, h.failed, h.unchanged]
  clear h
  generalize report.records = statuses at hgraded
  induction statuses with
  | nil => rfl
  | cons status statuses ih =>
      obtain ⟨hhead, htail⟩ := List.forall_mem_cons.mp hgraded
      have hrest := ih htail
      simp only [List.countP_cons, List.length_cons]
      rcases hhead with h | h | h
      · simp [h, results_distinct] at hrest ⊢
        omega
      · simp [h, results_distinct] at hrest ⊢
        omega
      · simp [h, results_distinct] at hrest ⊢
        omega

/-- The switch counts the entry that is appended behind it. -/
theorem countResult_counted {report : Report} (hreport : Counted report)
    (r : Record) {status : RecordStatus} (hgraded : Graded status)
    (s : Sys World) :
    (countResult env r status.result report).wpOk o s fun report' _ =>
      report'.records = report.records ∧
        report'.certificates = report.certificates ∧
        Counted { report' with records := report'.records ++ [status] } := by
  obtain ⟨hu, hf, hn⟩ := hreport
  unfold countResult
  rcases hgraded with h | h | h
  · rw [if_pos h]
    refine Prog.wpOk_bind_any fun _ t => Prog.wpOk_pure ⟨rfl, rfl, ?_⟩
    constructor <;> simp [h, hu, hf, hn, results_distinct]
  · rw [if_neg (by rw [h]; decide), if_pos h]
    refine Prog.wpOk_pure ⟨rfl, rfl, ?_⟩
    constructor <;> simp [h, hu, hf, hn, results_distinct]
  · rw [if_neg (by rw [h]; decide), if_neg (by rw [h]; decide)]
    refine Prog.wpOk_pure ⟨rfl, rfl, ?_⟩
    constructor <;> simp [h, hu, hf, hn, results_distinct]

variable (env address o) in
/-- What the first loop has made of a report it was given. -/
structure LoopResult (records : List Record) (report : Report) (s : Sys World)
    (report' : Report) (t : Sys World) : Prop where
  certificates : report'.certificates = report.certificates
  counted : Counted report'
  processed : ∃ statuses, report'.records = report.records ++ statuses ∧
    Processed env address o s (reported records) statuses t

theorem refreshOne_processed {report : Report} (hreport : Counted report)
    (r : Record) (s : Sys World) :
    (refreshOne env address report r).wpOk o s fun report' t =>
      LoopResult env address o [r] report s report' t := by
  unfold refreshOne
  by_cases hddns : recordDoesDDNS r.purpose = true
  · rw [if_pos hddns]
    refine Prog.wpOk_bind fun status t hstatus => ?_
    refine Prog.wpOk_bind fun report' u hcount => Prog.wpOk_pure ?_
    obtain ⟨-, hgraded⟩ := refreshRecordStatus_names r s status t hstatus
    obtain ⟨hrecords, hcertificates, hcounted⟩ :=
      countResult_counted hreport r hgraded t report' u hcount
    refine ⟨hcertificates, hcounted, [status], by rw [hrecords], ?_⟩
    rw [show reported [r] = [r] from List.filter_cons_of_pos hddns]
    exact .cons hstatus hcount (.nil u)
  · rw [if_neg hddns]
    refine Prog.wpOk_pure ⟨rfl, hreport, [], by simp, ?_⟩
    rw [show reported [r] = [] from List.filter_cons_of_neg hddns]
    exact .nil s

/-- **The first loop.**  Every DDNS record is processed in list order and gets
one entry, and the counts are those of the entries. -/
theorem refreshLoop_processed :
    ∀ (records : List Record) (report : Report) (s : Sys World),
      Counted report →
        (records.foldlM (refreshOne env address) report).wpOk o s
          fun report' t =>
            LoopResult env address o records report s report' t := by
  intro records
  induction records with
  | nil =>
      intro report s hreport
      exact Prog.wpOk_pure ⟨rfl, hreport, [], by simp, .nil s⟩
  | cons r records ih =>
      intro report s hreport
      rw [List.foldlM_cons]
      refine Prog.wpOk_bind (Prog.wpOk_mono
        (refreshOne_processed hreport r s) ?_)
      rintro report₁ t ⟨hcerts, hcounted, statuses, hrecords, hone⟩
      refine Prog.wpOk_mono (ih report₁ t hcounted) ?_
      rintro report₂ u ⟨hcerts', hcounted', statuses', hrecords', hrest⟩
      refine ⟨hcerts'.trans hcerts, hcounted', statuses ++ statuses', ?_, ?_⟩
      · rw [hrecords', hrecords, List.append_assoc]
      · have hsplit : reported (r :: records) =
            reported [r] ++ reported records :=
          List.filter_append [r] records
        rw [hsplit]
        exact hone.append hrest

theorem applies_status {s t : Sys World} {r : Record} {status : RecordStatus}
    (hstatus : refreshRecordStatus env r address o s = (.ok status, t)) :
    Applies r address s.state t.state := by
  have hkeeps : Prog.Keeps o (Applies r address)
      (refreshRecordStatus env r address) := refreshRecordStatus_applies o env
  have h := hkeeps s
  rwa [Prog.wp, hstatus] at h

theorem applies_count {t u : Sys World} {r : Record} {result : GoString}
    {report report' : Report}
    (hcount : countResult env r result report o t = (.ok report', u)) :
    Applies r address t.state u.state := by
  have hkeeps : Prog.Keeps o (Applies r address)
      (countResult env r result report) :=
    countResult_applies o env r result report
  have h := hkeeps t
  rwa [Prog.wp, hcount] at h

/-- The processing of one record, from its status to the end of its tasks. -/
theorem applies_step {s t u : Sys World} {r : Record} {status : RecordStatus}
    {report report' : Report}
    (hstatus : refreshRecordStatus env r address o s = (.ok status, t))
    (hcount : countResult env r status.result report o t = (.ok report', u)) :
    Applies r address s.state u.state :=
  Applies.trans _ _ _ (applies_status hstatus) (applies_count hcount)

theorem Processed.certificates {s t : Sys World} {records : List Record}
    {statuses : List RecordStatus}
    (h : Processed env address o s records statuses t) :
    t.state.certificates = s.state.certificates := by
  induction h with
  | nil s => rfl
  | cons hstatus hcount _ ih =>
      rw [ih, (applies_step hstatus hcount).certificates]

end FirstLoop

/-! ## The second loop -/

section SecondLoop

variable (env : Env) (o : Oracle Call)

/-- The records whose certificate is reported, in list order. -/
def certified (records : List Record) : List Record :=
  records.filter fun r => recordDoesCert r.purpose

/-- The entry made from a row. -/
def shown (r : Record) (c : Certificate) : CertificateStatus where
  domain := r.name ++ lit "." ++ r.domain
  status := c.status
  notAfter := c.notAfter.elim [] env.formatDate
  error := c.lastError.string

def notIssued : GoString := "not issued"

/-- The entry a record should have: that of its row, or "not issued". -/
def expected (w : World) (r : Record) : CertificateStatus :=
  match certificateOf w r.id with
  | some c => shown env r c
  | none => ⟨r.name ++ lit "." ++ r.domain, notIssued, [], []⟩

/-- What the statement leaves in the struct as the call with this number. -/
def scanned (w : World) (n : Nat) (r : Record) : Certificate :=
  if o n .getCertificateByRecord = .none then
    (certificateOf w r.id).getD Certificate.zero
  else Certificate.zero

theorem getCertificateByRecord_scanned (r : Record) (s : Sys World) :
    (getCertificateByRecord r.id).wp o s fun res t =>
      res.toOption.getD Certificate.zero = scanned o s.state s.clock r ∧
        t = ⟨s.state, s.clock + 1⟩ := by
  unfold scanned
  by_cases ho : o s.clock .getCertificateByRecord = .none
  · rw [if_pos ho]
    refine (Prog.wp_query_none ho).mpr ⟨?_, rfl⟩
    unfold certificateOf
    cases s.state.certificates.rows.find? fun c => c.recordID == r.id with
    | none => rfl
    | some c => rfl
  · rw [if_neg ho]
    exact (Prog.wp_query_faulty ho).mpr ⟨rfl, rfl⟩

/-- The report after some more entries of certificates. -/
def withCertificates (report : Report) (cs : List CertificateStatus) : Report :=
  { report with certificates := report.certificates ++ cs }

theorem certificateOne_eq (report : Report) {r : Record}
    (hcert : recordDoesCert r.purpose = true) (s : Sys World) :
    certificateOne env report r o s =
      (.ok (withCertificates report
        [shown env r (scanned o s.state s.clock r)]),
        ⟨s.state, s.clock + 1⟩) := by
  have hread := getCertificateByRecord_scanned o r s
  unfold certificateOne
  rw [if_pos hcert, Prog.bind_apply]
  unfold Prog.attempt
  rw [hread.2]
  dsimp only
  rw [hread.1]
  rfl

/-- **The second loop**: an entry for every record with a certificate, made
from what the statement leaves behind. -/
theorem certificateLoop_eq :
    ∀ (records : List Record) (report : Report) (s : Sys World),
      records.foldlM (certificateOne env) report o s =
        (.ok (withCertificates report ((certified records).mapIdx fun i r =>
          shown env r (scanned o s.state (s.clock + i) r))),
          ⟨s.state, s.clock + (certified records).length⟩) := by
  intro records
  induction records with
  | nil =>
      intro report s
      show (Except.ok report, s) = _
      simp [certified, withCertificates]
  | cons r records ih =>
      intro report s
      rw [List.foldlM_cons]
      by_cases hcert : recordDoesCert r.purpose = true
      · have hone : certified (r :: records) = r :: certified records :=
          List.filter_cons_of_pos hcert
        rw [Prog.bind_apply, certificateOne_eq env o report hcert]
        dsimp only
        rw [ih, hone, List.mapIdx_cons, List.length_cons]
        simp only [withCertificates, List.append_assoc, List.cons_append,
          List.nil_append, Nat.add_zero, Nat.add_assoc, Nat.add_comm 1]
      · have hnone : certified (r :: records) = certified records :=
          List.filter_cons_of_neg hcert
        rw [hnone, ← ih report s]
        unfold certificateOne
        rw [if_neg hcert]
        rfl

/-- The record's row is there and read, or there is nothing in it to be
read. -/
def RowRead (w : World) (n : Nat) (r : Record) : Prop :=
  ∃ c, certificateOf w r.id = some c ∧
    (o n .getCertificateByRecord = .none ∨
      shown env r c = shown env r Certificate.zero)

/-- The entry of one record. -/
theorem shown_eq_expected (w : World) (n : Nat) (r : Record) :
    shown env r (scanned o w n r) = expected env w r ↔ RowRead env o w n r := by
  unfold scanned expected RowRead
  cases hrow : certificateOf w r.id with
  | none =>
      refine ⟨fun h => ?_, fun ⟨c, hc, _⟩ => nomatch hc⟩
      have hempty : lit "" = notIssued := by
        have hstatus := congrArg CertificateStatus.status h
        split at hstatus
        · exact hstatus
        · exact hstatus
      exact absurd hempty (by decide)
  | some c =>
      simp only [Option.getD_some, Option.some.injEq, exists_eq_left']
      split
      · next ho => exact ⟨fun _ => .inl ho, fun _ => rfl⟩
      · next ho =>
        exact ⟨fun h => .inr h.symm, fun h => (h.resolve_left ho).symm⟩

end SecondLoop

/-! ## The report -/

section Accuracy

variable (env : Env) (address : Address) (o : Oracle Call)

/-- The report of a pass over the records that starts from `s`. -/
structure Accurate (records : List Record) (s : Sys World) (report : Report) :
    Prop where
  /-- One entry for every DDNS record, in list order. -/
  entries : List.Forall₂ Names (reported records) report.records
  /-- No entry keeps a later record from being processed. -/
  processed : ∃ t, Processed env address o s (reported records)
    report.records t
  counted : Counted report
  total : report.updatedCount + report.failedCount + report.unchangedCount =
    report.records.length
  /-- One entry for every record with a certificate, from its row. -/
  certificates : report.certificates =
    (certified records).map (expected env s.state)

/-- The number of the first call of the second loop. -/
def certificateCall (records : List Record) (s : Sys World) : Nat :=
  (records.foldlM (refreshOne env address) (firstReport address) o s).2.clock

/-- A pass reports what the two loops have found. -/
theorem refreshReport_reports (records : List Record) (s : Sys World) :
    (refreshReport env address records (firstReport address)).wpOk o s
      fun report t => ∃ first u,
        LoopResult env address o records (firstReport address) s first u ∧
        t.state = { u.state with events := t.state.events } ∧
        report = withCertificates first ((certified records).mapIdx fun i r =>
          shown env r (scanned o u.state
            (certificateCall env address o records s + i) r)) := by
  refine Prog.wpOk_bind fun first u hloop => ?_
  have hfirst := refreshLoop_processed records (firstReport address) s
    ⟨rfl, rfl, rfl⟩ first u hloop
  have hclock : certificateCall env address o records s = u.clock := by
    rw [certificateCall, hloop]
  refine Prog.wpOk_bind fun report t hcerts => ?_
  rw [certificateLoop_eq] at hcerts
  obtain ⟨hreport, rfl⟩ := Prod.mk.inj hcerts
  obtain rfl := Except.ok.inj hreport
  have hfinish : Prog.Keeps o
      (fun w w' : World => w' = { w with events := w'.events })
      (finishReport (withCertificates first ((certified records).mapIdx
        fun i r => shown env r (scanned o u.state (u.clock + i) r)))) := by
    refine .ite (fun _ => .modify fun _ => rfl) fun _ => ?_
    exact .ite (fun _ => .modify fun _ => rfl) fun _ => .pure (fun _ => rfl) _
  refine Prog.wpOk_bind (Prog.wpOk_mono (Prog.wpOk_of_keeps hfinish) ?_)
  intro _ v hv
  exact Prog.wpOk_pure ⟨first, u, hfirst, hv, by rw [hclock]⟩

/-- Two ways to make the entries agree if they do for every record. -/
private theorem mapIdx_eq_map_iff {α β : Type} {f : Nat → α → β} {g : α → β}
    {as : List α} :
    as.mapIdx f = as.map g ↔ ∀ i a, as[i]? = some a → f i a = g a := by
  rw [List.mapIdx_eq_iff]
  refine forall_congr' fun i => ?_
  rw [List.getElem?_map]
  cases as[i]? with
  | none => exact ⟨fun _ _ => nofun, fun _ => rfl⟩
  | some a =>
      refine ⟨fun h b hb => ?_, fun h => ?_⟩
      · obtain rfl := Option.some.inj hb
        exact (Option.some.inj h).symm
      · exact congrArg some (h a rfl).symm

/-- **When the report is accurate.**  For all records, tables, zones and
failures: all of the report is, except for the entries of certificates; these
are exactly if every record with a certificate has a row, and the statement
that looks for it is answered or the row is as empty as no row. -/
theorem refresh_report_accurate_iff (records : List Record) (s : Sys World) :
    (refreshReport env address records (firstReport address)).wp o s
        (fun res _ => ∃ report, res = .ok report ∧
          Accurate env address o records s report) ↔
      ∀ i r, (certified records)[i]? = some r →
        RowRead env o s.state (certificateCall env address o records s + i) r
          := by
  obtain ⟨report, hreport⟩ :=
    refreshReport_succeeds o env address records (firstReport address) s
  obtain ⟨first, u, ⟨hcerts, hcounted, statuses, hrecords, hprocessed⟩, -,
    rfl⟩ := refreshReport_reports env address o records s report _
      (Prod.ext hreport rfl)
  obtain rfl : first.records = statuses := by
    rw [hrecords]
    rfl
  have hnames := hprocessed.names
  have hentries : first.certificates = [] := hcerts
  have hscanned : ∀ n r, scanned o u.state n r = scanned o s.state n r := by
    intro n r
    rw [scanned, scanned, certificateOf, certificateOf,
      hprocessed.certificates]
  have hcertificates : (withCertificates first ((certified records).mapIdx
      fun i r => shown env r (scanned o u.state
        (certificateCall env address o records s + i) r))).certificates =
        (certified records).map (expected env s.state) ↔
      ∀ i r, (certified records)[i]? = some r →
        RowRead env o s.state
          (certificateCall env address o records s + i) r := by
    rw [withCertificates, hentries, List.nil_append, mapIdx_eq_map_iff]
    refine forall₃_congr fun i r _ => ?_
    rw [hscanned, shown_eq_expected]
  constructor
  · rintro ⟨report, hres, haccurate⟩
    obtain rfl := Except.ok.inj (hreport.symm.trans hres)
    exact hcertificates.mp haccurate.certificates
  · intro hread
    exact ⟨_, hreport, hnames.1, ⟨u, hprocessed⟩,
      ⟨hcounted.updated, hcounted.failed, hcounted.unchanged⟩,
      hcounted.total hnames.2, hcertificates.mpr hread⟩

/-- A record with a certificate, and nothing but its row in the database. -/
private def fresh : Record :=
  ⟨1, "token", 7, "example.org", "www", 60, none, purposeCert, false, none⟩

private def bare : World :=
  { World.init fun _ _ => none with
    records := Table.empty.insert fun id => { fresh with id := id } }

private def someAddress : Address := ⟨1, some "192.0.2.1", none, true⟩

/-- A record for which no certificate has been issued is reported with an empty
status instead of "not issued". -/
theorem missing_certificate_has_no_status :
    (∃ report, (refreshReport Env.sample someAddress [fresh]
        (firstReport someAddress) .quiet ⟨bare, 0⟩).1 = .ok report ∧
      report.certificates = [⟨"www.example.org", [], [], []⟩]) ∧
    ¬(refreshReport Env.sample someAddress [fresh]
      (firstReport someAddress)).wp .quiet ⟨bare, 0⟩ fun res _ =>
        ∃ report, res = .ok report ∧
          Accurate Env.sample someAddress .quiet [fresh] ⟨bare, 0⟩ report := by
  have hcerts : ∀ report ∈ (refreshReport Env.sample someAddress [fresh]
      (firstReport someAddress) .quiet ⟨bare, 0⟩).1.toOption,
      report.certificates = [⟨"www.example.org", [], [], []⟩] := by
    decide +kernel
  obtain ⟨report, hreport⟩ := refreshReport_succeeds .quiet Env.sample
    someAddress [fresh] (firstReport someAddress) ⟨bare, 0⟩
  have hreported := hcerts report (by rw [hreport]; rfl)
  refine ⟨⟨report, hreport, hreported⟩, ?_⟩
  rintro ⟨report', hres, haccurate⟩
  obtain rfl := Except.ok.inj (hreport.symm.trans hres)
  have hentries := hreported.symm.trans haccurate.certificates
  exact absurd hentries (by decide +kernel)

end Accuracy

end Hdns.Ports.RefreshReports

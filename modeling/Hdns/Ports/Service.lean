import Hdns.Ports.Hetzner
import Hdns.Ports.Tasks
import Hdns.Ports.UpdateAddress
import Mathlib.Data.List.Sort

/-!
# The refresh pass

`Refresh` stores the public address, brings the A record set of every DDNS
record up to date with it, and mails a report.  `RefreshRecord` does the same
for one record from the stored address.  Both fire the IP tasks of a record
they have updated; `UpdateRecord`, which they share with the API, fires none.
-/

namespace Hdns.Ports.Service

open Hdns.Verified
open Hdns.Verified.GoString
open Hdns.Ports.Schema
open Hdns.Ports.UpdateAddress
open Hdns.Ports.Hetzner
open Hdns.Ports.Tasks

/-! ## Statements -/

/-- `ORDER BY domain, name` under the collation of the columns. -/
def listOrder (collate : GoString → GoString) (a b : Record) : Prop :=
  if collate a.domain = collate b.domain then collate a.name ≤ collate b.name
  else collate a.domain ≤ collate b.domain

instance (collate : GoString → GoString) : DecidableRel (listOrder collate) :=
  fun a b => inferInstanceAs (Decidable
    (if collate a.domain = collate b.domain then
      collate a.name ≤ collate b.name
    else collate a.domain ≤ collate b.domain))

/-- `ListRecords` without a search text. -/
def listRecords (env : Env) : Handler (List Record) :=
  .query .listRecords .driver fun w =>
    .ok (w.records.rows.insertionSort (listOrder env.collate))

/-! ## One record -/

def resultUpdated : GoString := "updated"
def resultUnchanged : GoString := "unchanged"
def resultFailed : GoString := "failed"

def noIPv4 : GoString :=
  "current address has no valid IPv4; skipping A record update"

/-- `refreshRecordStatus`: every error ends up in the returned status.  The
address of a successful `UpdateAddress` is never nil. -/
def refreshRecordStatus (env : Env) (record : Record) (address : Address) :
    Handler RecordStatus := do
  let status : RecordStatus := ⟨record.domain, record.name, "A", [], [], []⟩
  match address.ipv4 with
  | none => pure { status with result := resultFailed, error := noIPv4 }
  | some ipv4 =>
      match ← (fetchRecord env record).attempt with
      | .error err =>
          pure { status with result := resultFailed, error := env.errorText err }
      | .ok found =>
          let first := found.bind fun rrset => rrset.values.head?
          let status := { status with value := first.getD [] }
          if first = some ipv4 then
            pure { status with result := resultUnchanged }
          else
            match ← (updateRecord env record address).attempt with
            | .error err =>
                pure { status with
                  result := resultFailed, error := env.errorText err }
            | .ok _ => pure { status with result := resultUpdated }

/-- The end of `dns.RefreshRecord`: nothing when the first value is the
address already. -/
def applyCurrent (env : Env) (record : Record) (current : Address)
    (ipv4 : GoString) : Handler Record := do
  let found ← fetchRecord env record
  if (found.bind fun rrset => rrset.values.head?) = some ipv4 then
    pure record
  else
    let record ← updateRecord env record current
    fireTasks env record.id triggerIP none
    pure record

/-- `dns.RefreshRecord`.  The record is returned because `UpdateRecord` sets
its address through the pointer. -/
def refreshRecord (env : Env) (record : Record) : Handler Record := do
  if recordDoesDDNS record.purpose then
    let current ← getCurrentAddress.mapError .wrap
    match current.ipv4 with
    | none => Prog.throw (.newError noIPv4)
    | some ipv4 => applyCurrent env record current ipv4
  else pure record

/-! ## The pass -/

def severityFailure : GoString := "failure"
def severitySuccess : GoString := "success"

/-- `mail.SendReport`, as far as this package sees it. -/
def sendReport (report : Report) : Handler Unit :=
  Prog.modify (·.log (.sendReport report))

/-- The switch on a record's result: count it, and fire the IP tasks of an
updated record. -/
def countResult (env : Env) (record : Record) (result : GoString)
    (report : Report) : Handler Report :=
  if result = resultUpdated then do
    fireTasks env record.id triggerIP none
    pure { report with updatedCount := report.updatedCount + 1 }
  else if result = resultFailed then
    pure { report with failedCount := report.failedCount + 1 }
  else
    pure { report with unchangedCount := report.unchangedCount + 1 }

/-- The body of the first loop of `Refresh`. -/
def refreshOne (env : Env) (address : Address) (report : Report)
    (record : Record) : Handler Report := do
  if recordDoesDDNS record.purpose then
    let status ← refreshRecordStatus env record address
    let report ← countResult env record status.result report
    pure { report with records := report.records ++ [status] }
  else pure report

/-- The body of the second loop of `Refresh`.  The statement returns a pointer
to the zero struct beside its error, so `cert` is never nil. -/
def certificateOne (env : Env) (report : Report) (record : Record) :
    Handler Report := do
  if recordDoesCert record.purpose then
    let read ← (getCertificateByRecord record.id).attempt
    let cert := read.toOption.getD Certificate.zero
    let status : CertificateStatus :=
      { domain := record.name ++ lit "." ++ record.domain
        status := cert.status
        notAfter := cert.notAfter.elim [] env.formatDate
        error := cert.lastError.string }
    pure { report with certificates := report.certificates ++ [status] }
  else pure report

/-- The end of `Refresh`: a report is mailed when something failed or
changed. -/
def finishReport (report : Report) : Handler Unit :=
  if report.failedCount > 0 ∨ report.addressError ≠ [] then
    sendReport { report with severity := severityFailure }
  else if report.updatedCount > 0 then
    sendReport { report with severity := severitySuccess }
  else pure ()

/-- Mail a failure report and return the error. -/
def giveUp (env : Env) (report : Report) (shown : GoError)
    (message : GoString) : Handler Unit := do
  sendReport { report with
    addressError := env.errorText shown, severity := severityFailure }
  Prog.throw (.because message shown)

/-- The two loops of `Refresh` and the report. -/
def refreshListed (env : Env) (address : Address) (records : List Record)
    (report : Report) : Handler Unit := do
  let report ← records.foldlM (refreshOne env address) report
  let report ← records.foldlM (certificateOne env) report
  finishReport report

/-- `Refresh` once the address is stored. -/
def refreshAll (env : Env) (address : Address) : Handler Unit := do
  let report := { Report.zero with
    currentIPv4 := address.ipv4.string, currentIPv6 := address.ipv6.string }
  match ← ((listRecords env).mapError .wrap).attempt with
  | .error err => giveUp env report err "failed to fetch DNS records"
  | .ok records => refreshListed env address records report

/-- `Refresh`, the scheduled pass. -/
def refresh (env : Env) : Handler Unit := do
  match ← (updateAddress env).attempt with
  | .error err =>
      giveUp env Report.zero err "failed to update public IP address"
  | .ok address => refreshAll env address

/-! ## What the pass touches -/

section Keeps

variable {o : Oracle Call} {R : World → World → Prop} (hrefl : ∀ w, R w w)
  (htrans : ∀ w₁ w₂ w₃, R w₁ w₂ → R w₂ w₃ → R w₁ w₃) (env : Env)
include hrefl htrans

/-- A record is updated, or nothing happens to it. -/
theorem refreshRecordStatus_keeps {r : Record} {address : Address}
    (hupdate : ∀ ip, address.ipv4 = some ip →
      Prog.Keeps o R (updateRecord env r address)) :
    Prog.Keeps o R (refreshRecordStatus env r address) := by
  unfold refreshRecordStatus
  cases hip : address.ipv4 with
  | none => exact .pure hrefl _
  | some ip =>
      refine .bind htrans (.attempt (fetchRecord_keeps hrefl htrans env r))
        fun found => ?_
      cases found with
      | error err => exact .pure hrefl _
      | ok found =>
          refine .ite (fun _ => .pure hrefl _) fun _ => ?_
          refine .bind htrans (.attempt (hupdate ip hip)) fun updated => ?_
          cases updated with
          | error err => exact .pure hrefl _
          | ok _ => exact .pure hrefl _

/-- A result is counted, and may fire tasks. -/
theorem countResult_keeps {r : Record}
    (hfire : Prog.Keeps o R (fireTasks env r.id triggerIP none))
    (result : GoString) (report : Report) :
    Prog.Keeps o R (countResult env r result report) := by
  refine .ite (fun _ => ?_) fun _ =>
    .ite (fun _ => .pure hrefl _) fun _ => .pure hrefl _
  exact .bind htrans hfire fun _ => .pure hrefl _

theorem refreshOne_keeps {r : Record} {address : Address}
    (hstatus : recordDoesDDNS r.purpose = true →
      Prog.Keeps o R (refreshRecordStatus env r address))
    (hfire : Prog.Keeps o R (fireTasks env r.id triggerIP none))
    (report : Report) : Prog.Keeps o R (refreshOne env address report r) := by
  refine .ite (fun hddns => ?_) fun _ => .pure hrefl _
  exact .bind htrans (hstatus hddns) fun status =>
    .bind htrans (countResult_keeps hrefl htrans env hfire _ report)
      fun _ => .pure hrefl _

/-- The end of `dns.RefreshRecord` updates the record and fires tasks, or does
nothing. -/
theorem applyCurrent_keeps {r : Record} {current : Address}
    (hupdate : Prog.Keeps o R (updateRecord env r current))
    (hfire : ∀ id, Prog.Keeps o R (fireTasks env id triggerIP none))
    (ipv4 : GoString) : Prog.Keeps o R (applyCurrent env r current ipv4) := by
  refine .bind htrans (fetchRecord_keeps hrefl htrans env r) fun found => ?_
  refine .ite (fun _ => .pure hrefl _) fun _ => ?_
  exact .bind htrans hupdate fun record =>
    .bind htrans (hfire record.id) fun _ => .pure hrefl _

end Keeps

end Hdns.Ports.Service

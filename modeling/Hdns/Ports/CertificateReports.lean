import Hdns.Ports.CertificateFiles
import Hdns.Ports.RefreshReports

/-!
# The certificates a client is shown

`certificateToProto` and the three calls that answer with it: `GetRecords`,
`GetCertificates` and `GetCertificateDetails`.  The status in an answer is the
one that is stored.

Rows are stored in the order of their creation, so `ORDER BY created_at DESC` is
the reverse order.

## Main results

* `getCertificates_shows`, `getRecords_shows`, `getCertificateDetails_shows` —
  every certificate in an answer is a stored row.
* `getCertificates_quiet` — the list of all rows, if nothing fails.
-/

namespace Hdns.Ports.CertificateReports

open Hdns.Verified
open Hdns.Verified.GoString
open Hdns.Ports.Schema
open Hdns.Ports.Tasks
open Hdns.Ports.Service
open Hdns.Ports.Records
open Hdns.Ports.Certificates
open Hdns.Ports.CertificateFiles

/-- `t.UnixMilli()`. -/
def unixMilli (t : Int) : Int := t * 1000

/-- `service.Certificate`. -/
structure CertificateProto where
  id : Int
  recordId : Int
  domains : GoString
  status : GoString
  notBefore : Int
  notAfter : Int
  serial : GoString
  lastError : GoString
  deriving DecidableEq, Repr

/-- `certificateToProto` for a row. -/
def certificateToProto (c : Certificate) : CertificateProto where
  id := c.id
  recordId := c.recordID
  domains := c.domains
  status := c.status
  notBefore := c.notBefore.elim 0 unixMilli
  notAfter := c.notAfter.elim 0 unixMilli
  serial := c.serial.string
  lastError := c.lastError.string

/-! ## Statements -/

/-- `ListAddresses`. -/
def listAddresses : Handler (List Address) :=
  .query .listAddresses .driver fun w => .ok w.addresses.rows.reverse

/-- `ListCertificates`. -/
def listCertificates : Handler (List Certificate) :=
  .query .listCertificates .driver fun w => .ok w.certificates.rows.reverse

/-- `ListCertificateJobsByRecord`. -/
def listCertificateJobsByRecord (recordID : Int) :
    Handler (List CertificateJob) :=
  .query .listCertificateJobsByRecord .driver fun w =>
    .ok ((w.certificateJobs.rows.filter (·.recordID == recordID)).insertionSort
      fun a b => b.startedAt ≤ a.startedAt)

/-- `ListTaskRunsByRecord`. -/
def listTaskRunsByRecord (recordID : Int) : Handler (List TaskRun) :=
  .query .listTaskRunsByRecord .driver fun w =>
    .ok ((w.taskRuns.rows.filter (·.recordID == recordID)).insertionSort
      fun a b => b.startedAt ≤ a.startedAt)

/-- `ListTasksByRecord`. -/
def listTasksByRecord (recordID : Int) : Handler (List Task) :=
  .query .listTasksByRecord .driver fun w =>
    .ok (w.tasks.rows.filter (·.recordID == recordID)).reverse

/-- `ListRecords` with a search text, which an empty one is not.  `like` is the
operator `LIKE` under the collation of the columns, for a pattern with `%` on
both sides of the text. -/
def searchRecords (env : Env) (like : GoString → GoString → Bool)
    (search : GoString) : Handler (List Record) :=
  .query .listRecords .driver fun w =>
    .ok ((w.records.rows.filter fun r =>
      search == [] || like r.name search || like r.domain search).insertionSort
        (listOrder env.collate))

/-! ## `GetCertificates` -/

def getCertificates : Handler (List CertificateProto) := do
  let certificates ← listCertificates.mapError
    (.because "failed to fetch certificates from database")
  pure (certificates.map certificateToProto)

/-! ## `GetRecords` -/

/-- `service.Record` in a list. -/
structure ListedRecord extends RecordProto where
  certificate : Option CertificateProto
  deriving DecidableEq, Repr

/-- The certificate of a record: of several rows the map keeps the last. -/
def certByRecord (certificates : List Certificate) (recordID : Int) :
    Option Certificate :=
  certificates.reverse.find? (·.recordID == recordID)

/-- The address of a record. -/
def addrByID (addresses : List Address) (id : Int) : Option Address :=
  addresses.reverse.find? (·.id == id)

/-- The entry of a record. -/
def listedRecord (addresses : List Address) (certificates : List Certificate)
    (record : Record) : ListedRecord where
  toRecordProto := Record.toProto record
    (record.addressID.bind (addrByID addresses))
  certificate := (certByRecord certificates record.id).map certificateToProto

def getRecords (env : Env) (like : GoString → GoString → Bool)
    (search : GoString) : Handler (List ListedRecord) := do
  let records ← (searchRecords env like search).mapError fun err =>
    .wrap (.because "failed to fetch records from database" err)
  let addresses ← listAddresses.mapError fun err =>
    .wrap (.because "failed to fetch addresses from database" err)
  let certificates ← listCertificates.mapError fun err =>
    .wrap (.because "failed to fetch certificates from database" err)
  pure (records.map (listedRecord addresses certificates))

/-! ## `GetCertificateDetails` -/

/-- `service.CertificateArtifact`. -/
structure CertificateArtifact where
  key : GoString
  label : GoString
  downloadUrl : GoString
  available : Bool
  deriving DecidableEq, Repr

/-- `fileExists`. -/
def fileExists (w : World) (path : GoString) : Bool := (w.files path).isSome

/-- Which files of a certificate are there, by the key of the artifact. -/
def availableFiles (w : World) (cert : Certificate) : GoString → Bool :=
  let certDir := GoPath.dir cert.certPath
  let fullchain := fileExists w cert.certPath
  let privkey := fileExists w cert.keyPath
  fun key =>
    if key = lit "cert" then fileExists w (pathIn certDir certPem)
    else if key = lit "chain" then fileExists w (pathIn certDir chainPem)
    else if key = lit "fullchain" then fullchain
    else if key = lit "privkey" then privkey
    else if key = lit "pkcs12" then fullchain && privkey
    else false

/-- The keys and labels of the artifacts. -/
def artifactKeys : List (GoString × GoString) :=
  [("cert", "cert.pem"), ("chain", "chain.pem"),
    ("fullchain", "fullchain.pem"), ("privkey", "privkey.pem"),
    ("pkcs12", "certificate.p12")]

/-- `buildProtoArtifacts`. -/
def buildProtoArtifacts (w : World) (recordID : Int)
    (cert : Option Certificate) : List CertificateArtifact :=
  let issued := cert.filter fun c => c.certPath ≠ [] ∧ c.keyPath ≠ []
  artifactKeys.map fun k =>
    { key := k.1
      label := k.2
      downloadUrl := lit "/api/certificates/download?record_id=" ++
        lit (toString recordID) ++ lit "&artifact=" ++ k.1
      available := issued.any fun c => availableFiles w c k.1 }

/-- `service.CertificateIssuanceJob`. -/
structure IssuanceJob where
  id : Int
  certificateId : Int
  source : GoString
  status : GoString
  startedAt : Int
  finishedAt : Int
  durationMs : Int
  error : GoString
  deriving DecidableEq, Repr

/-- An entry of `mapProtoIssuanceJobs`. -/
def issuanceJob (job : CertificateJob) : IssuanceJob where
  id := job.id
  certificateId := job.certificateID.getD 0
  source := job.source
  status := job.status
  startedAt := unixMilli job.startedAt
  finishedAt := job.finishedAt.elim 0 unixMilli
  durationMs := job.finishedAt.elim 0 fun t => unixMilli (t - job.startedAt)
  error := job.error.string

/-- `service.CertificateTaskRun`. -/
structure CertificateTaskRun where
  id : Int
  taskId : Int
  taskName : GoString
  certificateJobId : Int
  status : GoString
  responseStatus : GoString
  error : GoString
  startedAt : Int
  finishedAt : Int
  durationMs : Int
  deriving DecidableEq, Repr

/-- An entry of `mapProtoTaskRuns`; a task that is gone has no name. -/
def certificateTaskRun (tasks : List Task) (run : TaskRun) :
    CertificateTaskRun where
  id := run.id
  taskId := run.taskID
  taskName := ((tasks.reverse.find? (·.id == run.taskID)).map (·.name)).getD []
  certificateJobId := run.certificateJobID.getD 0
  status := run.status
  responseStatus := run.responseStatus.string
  error := run.error.string
  startedAt := unixMilli run.startedAt
  finishedAt := run.finishedAt.elim 0 unixMilli
  durationMs := run.finishedAt.elim 0 fun t => unixMilli (t - run.startedAt)

/-- `service.CertificateDetails`. -/
structure CertificateDetails where
  recordId : Int
  recordName : GoString
  recordDomain : GoString
  certificate : Option CertificateProto
  artifacts : List CertificateArtifact
  issuanceJobs : List IssuanceJob
  taskRuns : List CertificateTaskRun
  fetchedAt : Int
  deriving DecidableEq, Repr

/-- The certificate row of `GetCertificateDetails`: none is no error. -/
def detailedCertificate (recordID : Int) : Handler (Option Certificate) := do
  match ← (getCertificateByRecord recordID).attempt with
  | .ok cert => pure (some cert)
  | .error .noRows => pure none
  | .error err => Prog.throw err

/-- What the callback of `GetCertificateDetails` reads. -/
structure DetailRows where
  record : Record
  cert : Option Certificate
  jobs : List CertificateJob
  runs : List TaskRun
  tasks : List Task

/-- The callback of `GetCertificateDetails`. -/
def detailRows (recordID : Int) : Handler DetailRows := do
  let record ← getRecord recordID
  let cert ← detailedCertificate recordID
  let jobs ← listCertificateJobsByRecord recordID
  let runs ← listTaskRunsByRecord recordID
  let tasks ← listTasksByRecord recordID
  pure ⟨record, cert, jobs, runs, tasks⟩

/-- The error of `GetCertificateDetails` for one of its callback. -/
def detailsError (err : GoError) : GoError :=
  if err = .noRows then .newError "record not found"
  else .because "failed to fetch certificate details" err

/-- The answer of `GetCertificateDetails`. -/
def certificateDetails (env : Env) (w : World) (rows : DetailRows) :
    CertificateDetails where
  recordId := rows.record.id
  recordName := rows.record.name
  recordDomain := rows.record.domain
  certificate := rows.cert.map certificateToProto
  artifacts := buildProtoArtifacts w rows.record.id rows.cert
  issuanceJobs := rows.jobs.map issuanceJob
  taskRuns := (rows.runs.filter (·.triggerOn == triggerCert)).map
    (certificateTaskRun rows.tasks)
  fetchedAt := unixMilli env.now

def getCertificateDetails (env : Env) (recordID : Int) :
    Handler CertificateDetails :=
  if recordID = 0 then Prog.throw (.newError "record id is required")
  else do
    let rows ← (detailRows recordID).mapError detailsError
    let w ← Prog.get
    pure (certificateDetails env w rows)

/-! ## What the answers show -/

section Shows

variable {o : Oracle Call} {s : Sys World}

/-- The answer entry is that of a stored row. -/
def Stored (w : World) (p : CertificateProto) : Prop :=
  ∃ c ∈ w.certificates.rows, p = certificateToProto c

/-- A query that answers has read the state it leaves. -/
private theorem query_ok {α : Type} {c : Call} {read : World → Except GoError α}
    (s : Sys World) :
    (Prog.query c .driver read).wpOk o s fun a t =>
      read s.state = .ok a ∧ t.state = s.state :=
  Prog.wpOk_query fun _ ha => ⟨ha, rfl⟩

theorem listCertificates_ok (s : Sys World) :
    listCertificates.wpOk o s fun cs t =>
      cs = s.state.certificates.rows.reverse ∧ t.state = s.state :=
  Prog.wpOk_mono (query_ok s) fun _ _ h => ⟨(Except.ok.inj h.1).symm, h.2⟩

/-- The list of certificates is that of all rows. -/
theorem getCertificates_ok :
    getCertificates.wpOk o s fun ps _ =>
      ps = s.state.certificates.rows.reverse.map certificateToProto := by
  refine Prog.wpOk_bind (Prog.wpOk_mapError ?_)
  refine Prog.wpOk_mono (listCertificates_ok s) ?_
  rintro _ t ⟨rfl, -⟩
  exact Prog.wpOk_pure rfl

theorem getCertificates_shows :
    getCertificates.wpOk o s fun ps _ => ∀ p ∈ ps, Stored s.state p := by
  refine Prog.wpOk_mono getCertificates_ok ?_
  rintro _ _ rfl p hp
  obtain ⟨c, hc, rfl⟩ := List.mem_map.mp hp
  exact ⟨c, List.mem_reverse.mp hc, rfl⟩

/-- Nothing fails: the answer is the list of all rows. -/
theorem getCertificates_quiet (s : Sys World) :
    getCertificates .quiet s =
      (.ok (s.state.certificates.rows.reverse.map certificateToProto),
        ⟨s.state, s.clock + 1⟩) := rfl

theorem getRecords_shows (env : Env) (like : GoString → GoString → Bool)
    (search : GoString) :
    (getRecords env like search).wpOk o s fun rs _ =>
      ∀ r ∈ rs, ∀ p ∈ r.certificate, Stored s.state p := by
  refine Prog.wpOk_bind (Prog.wpOk_mapError (Prog.wpOk_mono (query_ok s) ?_))
  rintro records t ⟨-, ht⟩
  refine Prog.wpOk_bind (Prog.wpOk_mapError (Prog.wpOk_mono (query_ok t) ?_))
  rintro addresses u ⟨-, hu⟩
  refine Prog.wpOk_bind (Prog.wpOk_mapError
    (Prog.wpOk_mono (listCertificates_ok u) ?_))
  rintro _ v ⟨rfl, -⟩
  refine Prog.wpOk_pure fun r hr p hp => ?_
  obtain ⟨record, _, rfl⟩ := List.mem_map.mp hr
  obtain ⟨c, hc, rfl⟩ := Option.map_eq_some_iff.mp hp
  have hrow := List.mem_of_find?_eq_some hc
  rw [List.reverse_reverse, hu, ht] at hrow
  exact ⟨c, hrow, rfl⟩

theorem detailedCertificate_ok (recordID : Int) (s : Sys World) :
    (detailedCertificate recordID).wpOk o s fun cert t =>
      (∀ c ∈ cert, c ∈ s.state.certificates.rows) ∧ t.state = s.state := by
  refine Prog.wpOk_bind (Prog.wpOk_attempt_of_wp
    (Prog.wp_mono (getCertificateByRecord_spec o recordID s) ?_))
  rintro (err | c) t ⟨ht, hc⟩
  · cases err with
    | noRows => exact Prog.wpOk_pure ⟨nofun, ht⟩
    | _ => exact Prog.wpOk_throw _
  · refine Prog.wpOk_pure ⟨fun c' hc' => ?_, ht⟩
    obtain rfl := Option.some.inj hc'
    exact hc c rfl

theorem detailRows_ok (recordID : Int) (s : Sys World) :
    (detailRows recordID).wpOk o s fun rows t =>
      (∀ c ∈ rows.cert, c ∈ s.state.certificates.rows) ∧
        t.state = s.state := by
  refine Prog.wpOk_bind (Prog.wpOk_mono (query_ok s) ?_)
  rintro record t ⟨-, ht⟩
  refine Prog.wpOk_bind (Prog.wpOk_mono (detailedCertificate_ok recordID t) ?_)
  rintro cert u ⟨hcert, hu⟩
  refine Prog.wpOk_bind (Prog.wpOk_mono (query_ok u) ?_)
  rintro jobs v ⟨-, hv⟩
  refine Prog.wpOk_bind (Prog.wpOk_mono (query_ok v) ?_)
  rintro runs x ⟨-, hx⟩
  refine Prog.wpOk_bind (Prog.wpOk_mono (query_ok x) ?_)
  rintro tasks y ⟨-, hy⟩
  refine Prog.wpOk_pure ⟨fun c hc => ?_, ?_⟩
  · exact ht ▸ hcert c hc
  · rw [hy, hx, hv, hu, ht]

theorem getCertificateDetails_shows (env : Env) (recordID : Int) :
    (getCertificateDetails env recordID).wpOk o s fun details _ =>
      ∀ p ∈ details.certificate, Stored s.state p := by
  unfold getCertificateDetails
  by_cases hid : recordID = 0
  · rw [if_pos hid]
    exact Prog.wpOk_throw _
  rw [if_neg hid]
  refine Prog.wpOk_bind (Prog.wpOk_mapError
    (Prog.wpOk_mono (detailRows_ok recordID s) ?_))
  rintro rows t ⟨hcert, -⟩
  refine Prog.wpOk_bind_any fun w u => Prog.wpOk_pure ?_
  intro p hp
  obtain ⟨c, hc, rfl⟩ := Option.map_eq_some_iff.mp hp
  exact ⟨c, hcert c hc, rfl⟩

end Shows

end Hdns.Ports.CertificateReports

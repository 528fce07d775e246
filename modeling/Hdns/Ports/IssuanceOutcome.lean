import Hdns.Ports.CertificateEdits
import Hdns.Ports.Convergence

/-!
# How an issuance ends

`runIssuance` closes the job it has created, once, on every path: as failed
through the closure `fail`, which also marks the certificate row, or as
successful behind the statement that stores the certificate, before it fires
the certificate tasks.

The results are about runs in which the two statements of `fail` and the one
that closes the job get through, and in which a statement that fails has had no
effect.

## Main results

* `obtainAndStore_outcome` — the part that can fail changes files only, unless
  it stores the certificate at its end.
* `issuance_bookkeeping` — the result, the job, the row and the tasks of every
  issuance that has created a job.
-/

namespace Hdns.Ports.IssuanceOutcome

open Hdns.Verified
open Hdns.Verified.GoString
open Hdns.Ports.Schema
open Hdns.Ports.Tasks
open Hdns.Ports.Names
open Hdns.Ports.Records
open Hdns.Ports.Certificates
open Hdns.Ports.Operations
open Hdns.Ports.CertificateEdits
open Hdns.Ports.Convergence

/-! ## What the steps change -/

/-- Nothing but the files changes. -/
def FilesOnly (w w' : World) : Prop := w' = { w with files := w'.files }

theorem FilesOnly.refl (w : World) : FilesOnly w w := rfl

theorem FilesOnly.trans (w₁ w₂ w₃ : World) (h : FilesOnly w₁ w₂)
    (h' : FilesOnly w₂ w₃) : FilesOnly w₁ w₃ := by
  unfold FilesOnly at *
  rw [h', h]

/-- The world with the columns of `p` in the certificate row. -/
def persisted (certID : Int) (p : CertificateParams) (w : World) : World :=
  { w with
    certificates :=
      w.certificates.updateWhere (fun c => c.id == certID) p.apply
        p.key_apply }

/-- The world with the certificate row marked as failed. -/
def markedFailed (certID : Int) (lastError : NullString) (w : World) : World :=
  { w with
    certificates :=
      w.certificates.updateWhere (fun c => c.id == certID) fun c =>
        { c with status := "failed", lastError := lastError } }

/-- The world with the job closed. -/
def jobClosed (env : Env) (jobID : Int) (status : GoString)
    (runErr : Option GoError) (w : World) : World :=
  { w with
    certificateJobs :=
      w.certificateJobs.updateWhere (fun j => j.id == jobID) fun j =>
        { j with
          status := status
          error := runErr.map env.errorText
          finishedAt := some env.now } }

/-- The world with a running job. -/
def jobCreated (env : Env) (recordID certID : Int) (source : IssuanceSource)
    (w : World) : World :=
  { w with
    certificateJobs := w.certificateJobs.insert fun id =>
      ⟨id, recordID, if certID = 0 then none else some certID, source,
        "running", env.now, none, none⟩ }

/-! ## The part that can fail -/

section Steps

variable {env : Env} {record : Record} {o : Oracle Call}

theorem writeFile_files (path content : GoString) :
    Prog.Keeps o FilesOnly (writeFile path content) := by
  have hopen : Prog.Keeps o FilesOnly (openFile path) :=
    .call FilesOnly.refl fun w => rfl
  have hwrite : Prog.Keeps o FilesOnly (writeContent path content) :=
    .call FilesOnly.refl fun w => rfl
  exact .bind FilesOnly.trans hopen fun _ => hwrite

theorem writeCertificateFiles_files (res : Resource) :
    Prog.Keeps o FilesOnly (writeCertificateFiles env record res) := by
  have hmkdir : Prog.Keeps o FilesOnly mkdirAll :=
    .call FilesOnly.refl FilesOnly.refl
  refine .bind FilesOnly.trans (.mapError hmkdir _) fun _ =>
    .bind FilesOnly.trans ?_ fun _ => .pure FilesOnly.refl _
  exact .forM FilesOnly.refl FilesOnly.trans
    (fun file => .mapError (writeFile_files _ _) _) _

/-- The paths an issuance for the record stores. -/
def certPath (env : Env) (record : Record) : GoString :=
  GoPath.join [certificateDir env record, fullchainPem]

def keyPath (env : Env) (record : Record) : GoString :=
  GoPath.join [certificateDir env record, privkeyPem]

theorem writeCertificateFiles_paths (res : Resource) :
    Prog.Returns o
      (fun paths => paths = (certPath env record, keyPath env record))
      (writeCertificateFiles env record res) :=
  .bind_any fun _ => .bind_any fun _ => .pure rfl

/-- The columns that are stored for a certificate: those of its leaf. -/
def LeafParams (env : Env) (record : Record) (res : Resource)
    (p : CertificateParams) : Prop :=
  ∃ leaf, parseLeafCertificate env res.certificate = .ok leaf ∧
    p = issuedParams (buildDomains record) leaf (certPath env record)
      (keyPath env record)

theorem storeFiles_outcome (res : Resource) (s : Sys World) :
    (storeFiles env record res).wp o s fun r t =>
      FilesOnly s.state t.state ∧
        ∀ p, r = .ok p → LeafParams env record res p := by
  refine Prog.wp_and ?_ ?_
  · have hkeeps : Prog.Keeps o FilesOnly (storeFiles env record res) :=
      .bind FilesOnly.trans (writeCertificateFiles_files res) fun _ =>
        .bind FilesOnly.trans (.ofExcept FilesOnly.refl _) fun _ =>
          .pure FilesOnly.refl _
    exact hkeeps s
  · have hreturns : Prog.Returns o (LeafParams env record res)
        (storeFiles env record res) := by
      refine .bind (writeCertificateFiles_paths res) fun paths hpaths => ?_
      intro t
      rw [hpaths, Prog.wp_bind, Prog.wp_ofExcept]
      cases hleaf : parseLeafCertificate env res.certificate with
      | error err => exact nofun
      | ok leaf =>
          intro p hp
          exact ⟨leaf, hleaf, (Except.ok.inj hp).symm⟩
    exact hreturns s

/-- The statement that stores the certificate of a row that is there. -/
theorem persistCertificate_outcome {certID : Int} (p : CertificateParams)
    (hlost : ∀ n, o n .updateCertificate ≠ .lostReply) {s : Sys World}
    (hrow : (s.state.certificates.find? certID).isSome = true) :
    (persistCertificate certID p).wp o s fun r t =>
      (r = .ok () ∧ t.state = persisted certID p s.state) ∨
        (∃ cause, r = .error cause) ∧ t.state = s.state := by
  have hnone : ¬(s.state.certificates.find? certID).isNone = true := by
    rw [Option.isNone_iff_eq_none]
    intro hnone
    rw [hnone] at hrow
    cases hrow
  rw [persistCertificate, Prog.wp_mapError]
  refine Prog.wp_call_of ?_ (fun _ => .inr ⟨⟨_, rfl⟩, rfl⟩)
    fun h => absurd h (hlost _)
  rw [if_neg hnone]
  split
  · exact .inr ⟨⟨_, rfl⟩, rfl⟩
  · exact .inl ⟨rfl, rfl⟩

/-- **The steps that can fail.**  Unless the certificate is stored at their
end, they change files only. -/
theorem obtainAndStore_outcome {certID : Int}
    (hlost : ∀ n, o n .updateCertificate ≠ .lostReply) {s : Sys World}
    (hrow : (s.state.certificates.find? certID).isSome = true) :
    (obtainAndStore env record certID).wp o s fun r t =>
      match r with
      | .ok () => ∃ res p files,
          obtainCertificate env record (buildDomains record) record.domain =
              .ok res ∧
            LeafParams env record res p ∧
            t.state = persisted certID p { s.state with files := files }
      | .error _ => FilesOnly s.state t.state := by
  rw [obtainAndStore, Prog.wp_bind, Prog.wp_ofExcept]
  cases hobtain : obtainCertificate env record (buildDomains record)
      record.domain with
  | error err => exact FilesOnly.refl _
  | ok res =>
      show Prog.wp _ o s _
      refine Prog.wp_bind_of (storeFiles_outcome res s)
        (fun _ t h => h.1) ?_
      rintro p t ⟨hfiles, hp⟩
      have hrow' : (t.state.certificates.find? certID).isSome = true := by
        rw [hfiles]
        exact hrow
      refine Prog.wp_mono (persistCertificate_outcome p hlost hrow') ?_
      rintro r u (⟨rfl, hu⟩ | ⟨⟨cause, rfl⟩, hu⟩)
      · exact ⟨res, p, t.state.files, rfl, hp p rfl, by rw [hu, ← hfiles]⟩
      · rw [hu]
        exact hfiles

/-! ## Creating and closing -/

/-- A row for the record, which is there once `ensureCertificateRow` has
returned its id. -/
theorem ensureCertificateRow_row (domains : List GoString) (s : Sys World) :
    (ensureCertificateRow record domains).wpOk o s fun certID t =>
      ∃ row, t.state.certificates.find? certID = some row ∧
        row.recordID = record.id := by
  refine Prog.wpOk_mapError (Prog.wpOk_bind (Prog.wpOk_of_wp ?_))
  rw [Prog.wp_attempt]
  have hinsert : (createCertificate record.id (joinDomains domains)
      "pending").wpOk o ⟨s.state, s.clock + 1⟩ fun certID t =>
        ∃ row, t.state.certificates.find? certID = some row ∧
          row.recordID = record.id := by
    refine Prog.wpOk_of_wp (Prog.wp_mono (createCertificate_spec o _ _ _ _) ?_)
    rintro r t ⟨-, hok⟩ certID rfl
    obtain ⟨rfl, -, ht⟩ := hok certID rfl
    rw [ht]
    exact ⟨_, Table.find?_insert_self _ _ _, rfl⟩
  refine Prog.wp_query_of ?_ ?_
  · rintro r hr
    obtain rfl := Except.ok.inj hr
    cases hfound : s.state.certificates.rows.find?
        fun c => c.recordID == record.id with
    | none => exact hinsert
    | some row =>
        have hrow := certificateOf_spec (w := s.state) hfound
        exact Prog.wpOk_pure ⟨row, Table.find?_of_mem hrow.1, hrow.2⟩
  · rintro r hr
    obtain rfl := Except.ok.inj hr
    exact Prog.wpOk_throw _

/-- Preparing the row leaves the jobs alone. -/
def JobsKept (w w' : World) : Prop := w'.certificateJobs = w.certificateJobs

theorem ensureCertificateRow_jobs (domains : List GoString) :
    Prog.Keeps o JobsKept (ensureCertificateRow record domains) := by
  refine ensureCertificateRow_keeps (R := JobsKept) (fun _ => rfl) ?_
    (fun _ _ => rfl) record domains
  intro w₁ w₂ w₃ h h'
  exact Eq.trans h' h

theorem createCertificateJob_outcome (recordID certID : Int)
    (source : IssuanceSource)
    (hcreate : ∀ n, o n .createCertificateJob ≠ .lostReply) (s : Sys World) :
    (createCertificateJob env recordID certID source).wp o s fun r t =>
      (r = .ok s.state.certificateJobs.next ∧
        t.state = jobCreated env recordID certID source s.state) ∨
      (∃ err, r = .error err) ∧ t.state = s.state := by
  rw [createCertificateJob, Prog.wp_mapError]
  generalize hid : (if certID = 0 then none else some certID) = certificateID
  refine Prog.wp_call_of ?_ (fun _ => .inr ⟨⟨_, rfl⟩, rfl⟩)
    fun h => absurd h (hcreate _)
  split
  · exact .inr ⟨⟨_, rfl⟩, rfl⟩
  · exact .inl ⟨rfl, by rw [jobCreated, hid]⟩

section Closing

variable (hfinish : ∀ n, o n .finishCertificateJob = .none)
include hfinish

theorem finishCertificateJob_outcome (jobID : Int) (status : GoString)
    (runErr : Option GoError) (s : Sys World) :
    (finishCertificateJob env jobID status runErr).wp o s fun r t =>
      r = .ok () ∧ t.state = jobClosed env jobID status runErr s.state := by
  rw [finishCertificateJob, Prog.wp_bind, Prog.wp_attempt]
  exact (Prog.wp_call_none (hfinish _)).mpr ⟨rfl, rfl⟩

theorem failIssuance_outcome
    (hfailed : ∀ n, o n .updateCertificateStatus = .none) (certID jobID : Int)
    (cause : GoError) (s : Sys World) :
    (failIssuance env certID jobID cause).wp o s fun r t =>
      r = .error cause.wrap ∧
        t.state = jobClosed env jobID "failed" (some cause)
          (markedFailed certID (some (env.errorText cause)) s.state) := by
  have hmark : (setCertificateFailed env certID cause).wp o s fun r t =>
      r = .ok () ∧ t.state =
        markedFailed certID (some (env.errorText cause)) s.state := by
    rw [setCertificateFailed, Prog.wp_bind, Prog.wp_attempt]
    exact (Prog.wp_call_none (hfailed _)).mpr ⟨rfl, rfl⟩
  refine Prog.wp_bind_of hmark (fun e t h => by cases h.1) ?_
  rintro _ t ⟨-, ht⟩
  refine Prog.wp_bind_of (finishCertificateJob_outcome hfinish jobID "failed"
    (some cause) t) (fun e u h => by cases h.1) ?_
  rintro _ u ⟨-, hu⟩
  refine ⟨rfl, ?_⟩
  show u.state = _
  rw [hu, ht]

end Closing

end Steps

/-! ## The books -/

section Books

variable (env : Env) (record : Record) (o : Oracle Call)

/-- The row, which was `row` when the job was created, has the data and the
paths of a new certificate. -/
def Issued (certID : Int) (row : Certificate) (w : World) : Prop :=
  ∃ res p, obtainCertificate env record (buildDomains record) record.domain =
      .ok res ∧
    LeafParams env record res p ∧
    w.certificates.find? certID = some (p.apply row)

/-- The tasks, which were as in `w` when the job was created, have been fired
once, behind the closing of the job. -/
def Fired (jobID : Int) (w : World) (t : Sys World) : Prop :=
  ∃ u : Sys World, u.state.tasks = w.tasks ∧ u.state.taskRuns = w.taskRuns ∧
    u.state.events = w.events ∧
    (∃ job, u.state.certificateJobs.find? jobID = some job ∧
      job.status = lit "success") ∧
    fireTasks env record.id triggerCert (some jobID) o u = (.ok (), t)

/-- No task has run. -/
def NoneFired (w w' : World) : Prop :=
  w'.tasks = w.tasks ∧ w'.taskRuns = w.taskRuns ∧ w'.events = w.events

/-- The books of an issuance that has created the job `jobID` in the world `w`
and has ended with `res` in `t`. -/
structure Bookkept (certID : Int) (row : Certificate) (jobID : Int)
    (w : World) (res : Except GoError Unit) (t : Sys World) : Prop where
  job : ∃ job, t.state.certificateJobs.find? jobID = some job ∧
    job.finishedAt = some env.now ∧
    (job.status = lit "success" ∨ job.status = lit "failed") ∧
    (job.status = lit "success" ↔ res = .ok ())
  issued : res = .ok () ↔ Issued env record certID row t.state
  fired : res = .ok () ↔ Fired env record o jobID w t
  failed : ∀ err, res = .error err → ∃ cause, err = cause.wrap ∧
    (∃ job, t.state.certificateJobs.find? jobID = some job ∧
      job.error = some (env.errorText cause)) ∧
    t.state.certificates.find? certID = some
      { row with status := "failed", lastError := some (env.errorText cause) } ∧
    NoneFired w t.state

section Theorem

variable {env : Env} {record : Record} {o : Oracle Call}

/-- The job that was created and then closed. -/
private theorem closed_job (env : Env) (record : Record) (certID : Int)
    (source : IssuanceSource)
    (status : GoString) (runErr : Option GoError) (w v : World)
    (hv : v.certificateJobs =
      (jobCreated env record.id certID source w).certificateJobs) :
    ∃ job, (jobClosed env w.certificateJobs.next status runErr
        v).certificateJobs.find? w.certificateJobs.next = some job ∧
      job.finishedAt = some env.now ∧ job.status = status ∧
      job.error = runErr.map env.errorText := by
  have hfind : v.certificateJobs.find? w.certificateJobs.next = some
      ⟨w.certificateJobs.next, record.id,
        if certID = 0 then none else some certID, source, "running", env.now,
        none, none⟩ := by
    rw [hv]
    exact Table.find?_insert_self _ _ _
  exact ⟨_, Table.find?_updateWhere_self (by intro; rfl) hfind, rfl, rfl, rfl⟩

/-- The columns of a new certificate have the status of one. -/
theorem LeafParams.status {res : Resource} {p : CertificateParams}
    (h : LeafParams env record res p) : p.status = lit "valid" := by
  obtain ⟨leaf, -, rfl⟩ := h
  rfl

/-- An issuance that goes through `fail`. -/
private theorem bookkept_failed {certID : Int} {row : Certificate}
    {source : IssuanceSource} {w v : World} {cause : GoError} {t : Sys World}
    (hrow : w.certificates.find? certID = some row)
    (hv : FilesOnly (jobCreated env record.id certID source w) v)
    (ht : t.state = jobClosed env w.certificateJobs.next "failed" (some cause)
      (markedFailed certID (some (env.errorText cause)) v)) :
    Bookkept env record o certID row w.certificateJobs.next w
      (.error cause.wrap) t := by
  have hjobs : (markedFailed certID (some (env.errorText cause))
      v).certificateJobs =
        (jobCreated env record.id certID source w).certificateJobs := by
    show v.certificateJobs = _
    rw [hv]
  obtain ⟨job, hjob, hfinished, hstatus, herror⟩ :=
    closed_job env record certID source "failed" (some cause) w _ hjobs
  rw [← ht] at hjob
  have hmarked : t.state.certificates.find? certID = some
      { row with
        status := "failed", lastError := some (env.errorText cause) } := by
    have hvrow : v.certificates.find? certID = some row := by
      rw [hv]
      exact hrow
    rw [ht]
    exact Table.find?_updateWhere_self (by intro; rfl) hvrow
  refine ⟨⟨job, hjob, hfinished, .inr hstatus, ?_⟩, ?_, ?_, ?_⟩
  · rw [hstatus]
    exact ⟨fun h => absurd h (by decide), nofun⟩
  · refine ⟨nofun, fun ⟨res, p, _, hp, hissued⟩ => ?_⟩
    have hvalid : lit "failed" = p.status := congrArg Certificate.status
      (Option.some.inj (hmarked.symm.trans hissued))
    exact absurd (hvalid.trans hp.status) (by decide)
  · refine ⟨nofun, fun ⟨u, _, _, _, ⟨job', hjob', hsuccess⟩, hfire⟩ => ?_⟩
    have hruns := fireTasks_runs o env record.id triggerCert
      (some w.certificateJobs.next) u
    rw [Prog.wp, hfire] at hruns
    have hsame : t.state.certificateJobs = u.state.certificateJobs := by
      rw [hruns.frame]
    rw [← hsame, hjob] at hjob'
    obtain rfl := Option.some.inj hjob'
    exact absurd (hstatus.symm.trans hsuccess) (by decide)
  · intro err herr
    obtain rfl := Except.error.inj herr
    refine ⟨cause, rfl, ⟨job, hjob, herror⟩, hmarked, ?_, ?_, ?_⟩
    · rw [ht, jobClosed, markedFailed, hv, jobCreated]
    · rw [ht, jobClosed, markedFailed, hv, jobCreated]
    · rw [ht, jobClosed, markedFailed, hv, jobCreated]

/-- An issuance that stores the certificate. -/
private theorem bookkept_issued {certID : Int} {row : Certificate}
    {source : IssuanceSource} {w : World} {files : GoString → Option GoString}
    {res : Resource} {p : CertificateParams} {u t : Sys World}
    (hrow : w.certificates.find? certID = some row)
    (hobtain : obtainCertificate env record (buildDomains record)
      record.domain = .ok res)
    (hp : LeafParams env record res p)
    (hu : u.state = jobClosed env w.certificateJobs.next "success" none
      (persisted certID p
        { jobCreated env record.id certID source w with files := files }))
    (hfire : fireTasks env record.id triggerCert
      (some w.certificateJobs.next) o u = (.ok (), t)) :
    Bookkept env record o certID row w.certificateJobs.next w (.ok ()) t := by
  have hruns := fireTasks_runs o env record.id triggerCert
    (some w.certificateJobs.next) u
  rw [Prog.wp, hfire] at hruns
  obtain ⟨job, hjob, hfinished, hstatus, -⟩ :=
    closed_job env record certID source "success" none w
      (persisted certID p
        { jobCreated env record.id certID source w with files := files }) rfl
  rw [← hu] at hjob
  have hclosed : t.state.certificateJobs.find? w.certificateJobs.next =
      some job := by
    rw [hruns.frame]
    exact hjob
  have hissued : t.state.certificates.find? certID = some (p.apply row) := by
    rw [hruns.frame, hu]
    exact Table.find?_updateWhere_self (by intro; rfl) hrow
  refine ⟨⟨job, hclosed, hfinished, .inl hstatus, fun _ => rfl,
    fun _ => hstatus⟩, ⟨fun _ => ⟨res, p, hobtain, hp, hissued⟩, fun _ => rfl⟩,
    ⟨fun _ => ⟨u, ?_, ?_, ?_, ⟨job, hjob, hstatus⟩, hfire⟩, fun _ => rfl⟩,
    by rintro err ⟨⟩⟩
  · rw [hu, jobClosed, persisted, jobCreated]
  · rw [hu, jobClosed, persisted, jobCreated]
  · rw [hu, jobClosed, persisted, jobCreated]

/-- `runIssuance` behind the preparation of the row. -/
theorem issueForRow_books {certID : Int} {row : Certificate}
    (source : IssuanceSource) {s : Sys World}
    (hrow : s.state.certificates.find? certID = some row)
    (hfailed : ∀ n, o n .updateCertificateStatus = .none)
    (hfinish : ∀ n, o n .finishCertificateJob = .none)
    (hcreate : ∀ n, o n .createCertificateJob ≠ .lostReply)
    (hupdate : ∀ n, o n .updateCertificate ≠ .lostReply) :
    (issueForRow env record source certID).wp o s fun res t =>
      ((∃ err, res = .error err) ∧ t.state = s.state) ∨
        Bookkept env record o certID row s.state.certificateJobs.next s.state
          res t := by
  rw [issueForRow, Prog.wp_bind, Prog.wp_mapError]
  refine Prog.wp_mono (createCertificateJob_outcome record.id certID source
    hcreate s) ?_
  rintro r t (⟨rfl, ht⟩ | ⟨⟨err, rfl⟩, ht⟩)
  · show Prog.wp _ o t _
    have hrow' : (t.state.certificates.find? certID).isSome = true := by
      rw [ht, jobCreated, hrow]
      rfl
    rw [Prog.wp_bind, Prog.wp_attempt]
    refine Prog.wp_mono (obtainAndStore_outcome hupdate hrow') ?_
    rintro (cause | ⟨⟩) v hv
    · -- through `fail`
      refine Prog.wp_mono (failIssuance_outcome hfinish hfailed certID
        s.state.certificateJobs.next cause v) ?_
      rintro res u ⟨rfl, hu⟩
      exact .inr (bookkept_failed hrow (ht ▸ hv) hu)
    · obtain ⟨res, p, files, hobtain, hp, hstate⟩ := hv
      refine Prog.wp_bind_of (finishCertificateJob_outcome hfinish
        s.state.certificateJobs.next "success" none v)
        (fun err u h => by cases h.1) ?_
      rintro _ u ⟨-, hu⟩
      obtain ⟨_, hok⟩ := fireTasks_succeeds o env record.id triggerCert
        (some s.state.certificateJobs.next) u
      refine .inr (?_ : Bookkept env record o certID row _ _
        (fireTasks env record.id triggerCert _ o u).1 _)
      rw [hok]
      exact bookkept_issued hrow hobtain hp (by rw [hu, hstate, ht])
        (Prod.ext hok rfl)
  · exact .inl ⟨⟨_, rfl⟩, ht⟩

end Theorem

end Books

/-- **The books agree.**  For every outcome of the steps of an issuance, if the
statements that mark the row and close the job get through and a statement that
fails has no effect: either no job was created and an error is returned, or the
job is closed, and its status, the result, the certificate row and the tasks
agree.  In the failing case the job and the row carry the error, and the row is
otherwise what it was when the job was created. -/
theorem issuance_bookkeeping (env : Env) (record : Record)
    (source : IssuanceSource) (o : Oracle Call) (s : Sys World)
    (hfailed : ∀ n, o n .updateCertificateStatus = .none)
    (hfinish : ∀ n, o n .finishCertificateJob = .none)
    (hcreate : ∀ n, o n .createCertificateJob ≠ .lostReply)
    (hupdate : ∀ n, o n .updateCertificate ≠ .lostReply) :
    (runIssuance env record source).wp o s fun res t =>
      ((∃ err, res = .error err) ∧
        t.state.certificateJobs = s.state.certificateJobs) ∨
      ∃ certID row u,
        ensureCertificateRow record (buildDomains record) o s =
            (.ok certID, u) ∧
          u.state.certificates.find? certID = some row ∧
          row.recordID = record.id ∧
          Bookkept env record o certID row s.state.certificateJobs.next u.state
            res t := by
  have hkeeps : Prog.Keeps o JobsKept
      (ensureCertificateRow record (buildDomains record)) :=
    ensureCertificateRow_jobs _
  have hjobs := hkeeps s
  rw [runIssuance, Prog.wp_bind, Prog.wp_mapError]
  rcases hensure : ensureCertificateRow record (buildDomains record) o s with
    ⟨err | certID, u⟩
  · rw [Prog.wp, hensure] at hjobs ⊢
    exact .inl ⟨⟨_, rfl⟩, hjobs⟩
  · obtain ⟨row, hrow, hrecord⟩ := ensureCertificateRow_row
      (buildDomains record) s certID u hensure
    rw [Prog.wp, hensure] at hjobs ⊢
    have hnext : u.state.certificateJobs.next =
        s.state.certificateJobs.next := congrArg Table.next hjobs
    refine Prog.wp_mono (issueForRow_books source hrow hfailed hfinish hcreate
      hupdate) ?_
    rintro res t (⟨herr, ht⟩ | hbooks)
    · exact .inl ⟨herr, by rw [ht]; exact hjobs⟩
    · exact .inr ⟨certID, row, u, rfl, hrow, hrecord, hnext ▸ hbooks⟩

/-! ### An issuance that succeeds and one whose key cannot be written -/

private def www : Record :=
  ⟨1, "token", 7, "example.org", "www", 60, none, purposeCert, false, none⟩

private def start : Sys World :=
  ⟨{ World.init fun _ _ => none with
    records := Table.empty.insert fun id => { www with id := id } }, 0⟩

private def fullDisk : Oracle Call :=
  fun _ c => if c = .writeFile then .fails else .none

/-- The books of the issuance of `www` under an oracle. -/
private def Books (o : Oracle Call) : Prop :=
  ∃ certID row u,
    ensureCertificateRow www (buildDomains www) o start = (.ok certID, u) ∧
      u.state.certificates.find? certID = some row ∧ row.recordID = www.id ∧
      Bookkept Env.sample www o certID row
        start.state.certificateJobs.next u.state
        (runIssuance Env.sample www issuanceSourceManual o start).1
        (runIssuance Env.sample www issuanceSourceManual o start).2

theorem issuance_bookkeeping_www :
    ((runIssuance Env.sample www issuanceSourceManual .quiet start).1 =
        .ok () ∧ Books .quiet) ∧
      (∃ err, (runIssuance Env.sample www issuanceSourceManual fullDisk
        start).1 = .error err) ∧ Books fullDisk := by
  have hquiet := issuance_bookkeeping Env.sample www issuanceSourceManual
    .quiet start (fun _ => rfl) (fun _ => rfl) (fun _ => nofun) fun _ => nofun
  have hfull := issuance_bookkeeping Env.sample www issuanceSourceManual
    fullDisk start (fun _ => rfl) (fun _ => rfl) (fun _ => nofun)
    fun _ => nofun
  have hok : (runIssuance Env.sample www issuanceSourceManual .quiet
      start).1 = .ok () := by
    decide +kernel
  have herror : (runIssuance Env.sample www issuanceSourceManual fullDisk
      start).1.isOk = false := by
    decide +kernel
  have hjobs : (runIssuance Env.sample www issuanceSourceManual fullDisk
      start).2.state.certificateJobs.rows ≠ [] := by
    decide +kernel
  refine ⟨⟨hok, ?_⟩, ?_, ?_⟩
  · rcases hquiet with ⟨⟨err, herr⟩, -⟩ | hbooks
    · rw [hok] at herr
      cases herr
    · exact hbooks
  · cases hres : (runIssuance Env.sample www issuanceSourceManual fullDisk
        start).1 with
    | error err => exact ⟨err, rfl⟩
    | ok _ =>
        rw [hres] at herror
        cases herror
  · rcases hfull with ⟨-, hsame⟩ | hbooks
    · exact absurd (congrArg Table.rows hsame) hjobs
    · exact hbooks

end Hdns.Ports.IssuanceOutcome

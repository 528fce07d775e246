import Hdns.Ports.Records
import Hdns.Verified.GoPath
import Mathlib.Algebra.Group.Nat.Defs

/-!
# Issuing certificates

`runIssuance` obtains a certificate for a record, writes its four files, stores
the outcome in the `certificates` row and in the job history, and fires the
certificate tasks.  `IssueCertificate` and `RenewCertificates` run it while they
hold the in-flight slot of the record; `StartIssuance` (in `Records`) hands it
to a background goroutine.

`os.WriteFile` opens the file, which empties it, and then writes it: two
operations that fail separately.
-/

namespace Hdns.Ports.Certificates

open Hdns.Verified
open Hdns.Verified.GoString
open Hdns.Ports.Schema
open Hdns.Ports.UpdateAddress
open Hdns.Ports.Hetzner
open Hdns.Ports.Tasks
open Hdns.Ports.Names
open Hdns.Ports.Records

/-- `IssuanceSource`. -/
abbrev IssuanceSource := GoString

def issuanceSourceManual : IssuanceSource := "manual"
def issuanceSourceScheduled : IssuanceSource := "scheduled"

/-! ## Statements -/

/-- `CreateCertificateJob`, with the foreign keys to the record and the
certificate. -/
def createCertificateJobRow (recordID : Int) (certificateID : Option Int)
    (source status : GoString) (startedAt : Int) : Handler Int :=
  .call .createCertificateJob .driver fun w =>
    if (w.records.find? recordID).isNone ∨
        certificateID.any fun id => (w.certificates.find? id).isNone
    then (.error (.external "Error 1452: foreign key constraint fails"), w)
    else
      (.ok w.certificateJobs.next, { w with
        certificateJobs := w.certificateJobs.insert fun id =>
          ⟨id, recordID, certificateID, source, status, startedAt, none,
            none⟩ })

/-- `FinishCertificateJob`. -/
def finishCertificateJobRow (id : Int) (status : GoString)
    (error : NullString) (finishedAt : Int) : Handler Unit :=
  .call .finishCertificateJob .driver fun w =>
    (.ok (), { w with
      certificateJobs := w.certificateJobs.updateWhere (fun j => j.id == id)
        fun j =>
          { j with
            status := status
            error := error
            finishedAt := some finishedAt } })

/-- The columns `UpdateCertificate` sets. -/
structure CertificateParams where
  domains : GoString
  status : GoString
  notBefore : Option Int
  notAfter : Option Int
  serial : NullString
  lastError : NullString
  certPath : GoString
  keyPath : GoString
  deriving DecidableEq, Repr

/-- A text is too long for its column. -/
def CertificateParams.rejected (p : CertificateParams) : Bool :=
  tooLong 32 (some p.status) || tooLong 128 p.serial ||
    tooLong 512 (some p.certPath) || tooLong 512 (some p.keyPath)

/-- A certificate row with the columns of `p`. -/
def CertificateParams.apply (p : CertificateParams) (c : Certificate) :
    Certificate :=
  { c with
    domains := p.domains
    status := p.status
    notBefore := p.notBefore
    notAfter := p.notAfter
    serial := p.serial
    lastError := p.lastError
    certPath := p.certPath
    keyPath := p.keyPath }

theorem CertificateParams.key_apply (p : CertificateParams)
    (c : Certificate) : Row.key (p.apply c) = Row.key c := rfl

/-- `UpdateCertificate`: no row with the id is no error. -/
def updateCertificate (id : Int) (p : CertificateParams) : Handler Unit :=
  .call .updateCertificate .driver fun w =>
    if (w.certificates.find? id).isNone then (.ok (), w)
    else if p.rejected then (.error dataTooLong, w)
    else
      (.ok (), { w with
        certificates := w.certificates.updateWhere (fun c => c.id == id)
          p.apply })

/-- `UpdateCertificateStatus`. -/
def updateCertificateStatus (id : Int) (status : GoString)
    (lastError : NullString) : Handler Unit :=
  .call .updateCertificateStatus .driver fun w =>
    (.ok (), { w with
      certificates := w.certificates.updateWhere (fun c => c.id == id) fun c =>
        { c with status := status, lastError := lastError } })

/-- `ORDER BY not_after ASC`, of rows that have an expiry. -/
def renewalOrder (a b : Certificate) : Prop :=
  a.notAfter.getD 0 ≤ b.notAfter.getD 0

instance : DecidableRel renewalOrder := fun a b =>
  inferInstanceAs (Decidable (a.notAfter.getD 0 ≤ b.notAfter.getD 0))

/-- `ListCertificatesForRenewal`: a row without an expiry is not due. -/
def listCertificatesForRenewal (threshold : Int) :
    Handler (List Certificate) :=
  .query .listCertificatesForRenewal .driver fun w =>
    .ok ((w.certificates.rows.filter fun c =>
      c.notAfter.any fun t => t ≤ threshold).insertionSort renewalOrder)

/-! ## The history of an issuance -/

/-- `createCertificateJob`. -/
def createCertificateJob (env : Env) (recordID certID : Int)
    (source : IssuanceSource) : Handler Int :=
  (createCertificateJobRow recordID (if certID = 0 then none else some certID)
    source "running" env.now).mapError
    (.because "failed to create certificate job history entry")

/-- `finishCertificateJob`: a failure of its own is only logged. -/
def finishCertificateJob (env : Env) (jobID : Int) (status : GoString)
    (runErr : Option GoError) : Handler Unit := do
  let _ ← (finishCertificateJobRow jobID status (runErr.map env.errorText)
    env.now).attempt
  pure ()

/-- `setCertificateFailed`: a failure of its own is only logged. -/
def setCertificateFailed (env : Env) (certID : Int) (cause : GoError) :
    Handler Unit := do
  let _ ← (updateCertificateStatus certID "failed"
    (some (env.errorText cause))).attempt
  pure ()

/-! ## The files -/

def certPem : GoString := "cert.pem"
def chainPem : GoString := "chain.pem"
def fullchainPem : GoString := "fullchain.pem"
def privkeyPem : GoString := "privkey.pem"

/-- `certificateDir`.  `buildDomains` never returns an empty list. -/
def certificateDir (env : Env) (record : Record) : GoString :=
  let base := ((buildDomains record).headD []).trimPrefix wildcardPrefix
  GoPath.join [env.dataPath, "certs", base.replaceAll "*" "wildcard"]

/-- The files of an issuance in the order they are written. -/
def certificateFiles (res : Resource) : List (GoString × GoString) :=
  [(certPem, res.certificate),
    (chainPem, res.issuerCertificate),
    (fullchainPem, res.certificate ++ res.issuerCertificate),
    (privkeyPem, res.privateKey)]

/-- A file of the data directory has this content from now on. -/
def setFile (path content : GoString) (w : World) : World :=
  { w with files := fun p => if p = path then some content else w.files p }

/-- `os.MkdirAll`; directories are not part of the model. -/
def mkdirAll : Handler Unit :=
  .call .mkdirAll (.external "mkdir: input/output error") fun w => (.ok (), w)

/-- `os.OpenFile` with the flags of `os.WriteFile`: the file is truncated. -/
def openFile (path : GoString) : Handler Unit :=
  .call .openFile (.external "open: input/output error") fun w =>
    (.ok (), setFile path [] w)

/-- `File.Write` to a file that was just opened. -/
def writeContent (path content : GoString) : Handler Unit :=
  .call .writeFile (.external "write: no space left on device") fun w =>
    (.ok (), setFile path content w)

/-- `os.WriteFile`. -/
def writeFile (path content : GoString) : Handler Unit := do
  openFile path
  writeContent path content

/-- The body of the loop of `writeCertificateFiles`. -/
def writeCertificateFile (dir : GoString) (file : GoString × GoString) :
    Handler Unit :=
  (writeFile (GoPath.join [dir, file.1]) file.2).mapError
    (.because (lit "failed to write " ++ file.1))

/-- `writeCertificateFiles`: the paths of `fullchain.pem` and `privkey.pem`. -/
def writeCertificateFiles (env : Env) (record : Record) (res : Resource) :
    Handler (GoString × GoString) := do
  let dir := certificateDir env record
  mkdirAll.mapError (.because "failed to create certificate directory")
  (certificateFiles res).forM (writeCertificateFile dir)
  pure (GoPath.join [dir, fullchainPem], GoPath.join [dir, privkeyPem])

/-! ## Obtaining a certificate -/

/-- `parseLeafCertificate`. -/
def parseLeafCertificate (env : Env) (pemData : GoString) :
    Except GoError Leaf :=
  match env.pemDecode pemData with
  | none => .error (.newError "failed to decode certificate PEM")
  | some (block, _) =>
      (env.parseCertificate block).mapError
        (.because "failed to parse certificate")

/-- The ACME e-mail of a record, the global one where it has none. -/
def acmeEmail (env : Env) (record : Record) : GoString :=
  if record.acmeEmail.string.trimSpace ≠ [] then record.acmeEmail.string
  else env.acmeEmail

/-- `obtainCertificate`. -/
def obtainCertificate (env : Env) (record : Record) (domains : List GoString)
    (zoneName : GoString) : Except GoError Resource := do
  let email := acmeEmail env record
  (env.newACMEClient email).mapError .wrap
  let token ← (clientForRecord env record).mapError .wrap
  env.setDNS01Provider.mapError
    (.because "failed to configure dns-01 provider")
  (env.obtain email token record.zoneID zoneName domains).mapError
    (.because "failed to obtain certificate")

/-! ## `runIssuance` -/

/-- The closure `fail` of `runIssuance`. -/
def failIssuance (env : Env) (certID jobID : Int) (cause : GoError) :
    Handler Unit := do
  setCertificateFailed env certID cause
  finishCertificateJob env jobID "failed" (some cause)
  Prog.throw cause.wrap

/-- What a successful issuance stores. -/
def issuedParams (domains : List GoString) (leaf : Leaf)
    (certPath keyPath : GoString) : CertificateParams where
  domains := joinDomains domains
  status := "valid"
  notBefore := some leaf.notBefore
  notAfter := some leaf.notAfter
  serial := some leaf.serialNumber
  lastError := none
  certPath := certPath
  keyPath := keyPath

/-- Write the files and parse the leaf: the columns to store. -/
def storeFiles (env : Env) (record : Record) (res : Resource) :
    Handler CertificateParams := do
  let (certPath, keyPath) ← writeCertificateFiles env record res
  let leaf ← Prog.ofExcept (parseLeafCertificate env res.certificate)
  pure (issuedParams (buildDomains record) leaf certPath keyPath)

/-- The `UpdateCertificate` of `runIssuance`. -/
def persistCertificate (certID : Int) (p : CertificateParams) : Handler Unit :=
  (updateCertificate certID p).mapError
    (.because "failed to persist certificate")

/-- The part of `runIssuance` whose errors go through `fail`. -/
def obtainAndStore (env : Env) (record : Record) (certID : Int) :
    Handler Unit := do
  let res ← Prog.ofExcept
    (obtainCertificate env record (buildDomains record) record.domain)
  let p ← storeFiles env record res
  persistCertificate certID p

/-- The end of `runIssuance`: through `fail`, or with the job closed and the
tasks fired. -/
def closeIssuance (env : Env) (record : Record) (certID jobID : Int)
    (outcome : Except GoError Unit) : Handler Unit :=
  match outcome with
  | .error cause => failIssuance env certID jobID cause
  | .ok () => do
      finishCertificateJob env jobID "success" none
      fireTasks env record.id triggerCert (some jobID)

/-- `runIssuance`, once the certificate row is there. -/
def issueForRow (env : Env) (record : Record) (source : IssuanceSource)
    (certID : Int) : Handler Unit := do
  let jobID ← (createCertificateJob env record.id certID source).mapError .wrap
  let outcome ← (obtainAndStore env record certID).attempt
  closeIssuance env record certID jobID outcome

/-- `runIssuance`. -/
def runIssuance (env : Env) (record : Record) (source : IssuanceSource) :
    Handler Unit := do
  let certID ← (ensureCertificateRow record (buildDomains record)).mapError
    .wrap
  issueForRow env record source certID

/-! ## The callers that wait -/

/-- `issueForRecord`: the slot is given back when the issuance has ended. -/
def issueForRecord (env : Env) (record : Record) (source : IssuanceSource) :
    Handler Unit := do
  takeSlot env record
  let result ← (runIssuance env record source).attempt
  deletePending record.id
  Prog.ofExcept result

/-- `IssueCertificate`. -/
def issueCertificate (env : Env) (recordID : Int) : Handler Unit := do
  let record ← (getRecord recordID).mapError (.because "failed to load record")
  issueForRecord env record issuanceSourceManual

/-- The body of the loop of `RenewCertificates`: every error is only logged. -/
def renewOne (env : Env) (cert : Certificate) : Handler Unit := do
  match ← (getRecord cert.recordID).attempt with
  | .error _ => pure ()
  | .ok record =>
      if recordDoesCert record.purpose then
        let _ ← (issueForRecord env record issuanceSourceScheduled).attempt
        pure ()
      else pure ()

/-- `time.Duration(days) * 24 * time.Hour`, in nanoseconds. -/
def renewBefore (days : Int) : Int :=
  ((days * 24).bmod (2 ^ 64) * 3600000000000).bmod (2 ^ 64)

/-- `RenewCertificates`.  The clock is in seconds, as the column is. -/
def renewCertificates (env : Env) : Handler Unit := do
  if ¬env.acmeEnabled then pure ()
  else
    let threshold := env.now + renewBefore env.renewBeforeDays / 1000000000
    let certs ← (listCertificatesForRenewal threshold).mapError
      (.because "failed to list certificates for renewal")
    certs.forM (renewOne env)

end Hdns.Ports.Certificates

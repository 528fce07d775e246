import Hdns.Verified.Effect
import Hdns.Verified.GoString
import Hdns.Verified.Table

/-!
# The data model: rows, zones, errors and the world the server acts on

The rows are those of the `schema` package, less the columns no modelled
function reads (creation and update times).  A nullable column is an `Option`;
Go's `sql.NullString` reads the empty string where the column is NULL, which is
`NullString.string`.

The world holds the tables, the A record sets of the Hetzner zones, the files of
the data directory, the in-flight slots of certificate issuance and a log of the
events the outside world sees.  Each SQL statement, each API request and each
file operation is one external call of `Verified.Effect`, so that it can fail by
itself or lose its reply.
-/

namespace Hdns.Ports.Schema

open Hdns.Verified

/-! ## Errors -/

/-- The errors the program handles.  `errors.Is(err, sql.ErrNoRows)` is only
asked of errors that come straight from the driver, so it is equality with
`noRows`. -/
inductive GoError where
  /-- `sql.ErrNoRows`. -/
  | noRows
  /-- An error of the driver, the API client or another package. -/
  | external (text : GoString)
  /-- `apperror.NewError`. -/
  | newError (message : GoString)
  /-- `err.AddError(cause)`. -/
  | addError (err cause : GoError)
  /-- `apperror.Wrap`. -/
  | wrap (err : GoError)
  deriving DecidableEq, Repr

/-- What the driver reports when a statement did not get through. -/
def GoError.driver : GoError := .external "driver: bad connection"

/-- What the API client reports when a request did not get through. -/
def GoError.api : GoError := .external "hcloud: request failed"

/-- What `client.Do` reports when a request did not get through. -/
def GoError.request : GoError := .external "net/http: request failed"

/-- `apperror.NewError(message).AddError(cause)`. -/
def GoError.because (message : GoString) (cause : GoError) : GoError :=
  .addError (.newError message) cause

/-! ## Rows -/

/-- A nullable text column. -/
abbrev NullString := Option GoString

/-- The `String` field of a `sql.NullString`. -/
def NullString.string (s : NullString) : GoString := s.getD []

/-- `sql.NullString{String: s, Valid: s != ""}`. -/
def nullString (s : GoString) : NullString := if s = [] then none else some s

@[simp] theorem string_nullString (s : GoString) :
    (nullString s).string = s := by
  unfold nullString NullString.string
  split
  · next h => simp [h]
  · rfl

theorem nullString_ne_some_nil (s : GoString) : nullString s ≠ some [] := by
  unfold nullString
  split
  · simp
  · next h => simpa using h

structure Address where
  id : Int
  ipv4 : NullString
  ipv6 : NullString
  current : Bool
  deriving DecidableEq, Repr

instance : Row Address := ⟨Address.id⟩

structure Record where
  id : Int
  token : GoString
  zoneID : Int
  domain : GoString
  name : GoString
  ttl : Int32
  addressID : Option Int
  purpose : Int8
  includeWildcard : Bool
  acmeEmail : NullString
  deriving DecidableEq, Repr

instance : Row Record := ⟨Record.id⟩

theorem Record.key_addressed (addressID : Int) (r : Record) :
    Row.key { r with addressID := some addressID } = Row.key r := rfl

/-- Times are seconds since the epoch. -/
structure Certificate where
  id : Int
  recordID : Int
  domains : GoString
  status : GoString
  notBefore : Option Int
  notAfter : Option Int
  serial : NullString
  lastError : NullString
  certPath : GoString
  keyPath : GoString
  deriving DecidableEq, Repr

instance : Row Certificate := ⟨Certificate.id⟩

/-- What a row scan that found nothing leaves in the Go struct. -/
def Certificate.zero : Certificate :=
  ⟨0, 0, [], [], none, none, none, none, [], []⟩

structure Task where
  id : Int
  recordID : Int
  name : GoString
  triggerOn : Int8
  method : GoString
  url : GoString
  headers : NullString
  body : NullString
  includeCertificate : Bool
  enabled : Bool
  lastRun : Option Int
  lastStatus : NullString
  lastError : NullString
  certificateFormat : GoString
  deriving DecidableEq, Repr

instance : Row Task := ⟨Task.id⟩

structure TaskRun where
  id : Int
  taskID : Int
  recordID : Int
  certificateJobID : Option Int
  triggerOn : Int8
  status : GoString
  responseStatus : NullString
  error : NullString
  startedAt : Int
  finishedAt : Option Int
  deriving DecidableEq, Repr

instance : Row TaskRun := ⟨TaskRun.id⟩

structure CertificateJob where
  id : Int
  recordID : Int
  certificateID : Option Int
  source : GoString
  status : GoString
  startedAt : Int
  finishedAt : Option Int
  error : NullString
  deriving DecidableEq, Repr

instance : Row CertificateJob := ⟨CertificateJob.id⟩

/-! ## Record purposes and task triggers -/

def purposeDDNS : Int8 := 1
def purposeCert : Int8 := 2
def purposeBoth : Int8 := 3

/-- Whether a record's A record is kept in sync with the public address. -/
def recordDoesDDNS (purpose : Int8) : Bool :=
  purpose == purposeDDNS || purpose == purposeBoth

/-- Whether a certificate is issued for a record. -/
def recordDoesCert (purpose : Int8) : Bool :=
  purpose == purposeCert || purpose == purposeBoth

/-- `tasks.Trigger`, the values of the `trigger_on` column. -/
abbrev Trigger := Int8

def triggerIP : Trigger := 1
def triggerCert : Trigger := 2
def triggerBoth : Trigger := 3

/-! ## Zones -/

/-- An A record set of a Hetzner zone. -/
structure RRSet where
  ttl : Int
  values : List GoString
  deriving DecidableEq, Repr

/-- The A record sets, by zone id and name relative to the zone. -/
abbrev Zones := Int → GoString → Option RRSet

/-- The zones after one record set has been created or overwritten. -/
def Zones.set (z : Zones) (zoneID : Int) (name : GoString) (r : RRSet) :
    Zones :=
  fun i n => if i = zoneID ∧ n = name then some r else z i n

@[simp] theorem Zones.set_self (z : Zones) (zoneID : Int) (name : GoString)
    (r : RRSet) : z.set zoneID name r zoneID name = some r := by
  simp [Zones.set]

/-! ## Reports -/

/-- `mail.RecordStatus`. -/
structure RecordStatus where
  domain : GoString
  name : GoString
  type : GoString
  result : GoString
  value : GoString
  error : GoString
  deriving DecidableEq, Repr

/-- `mail.CertificateStatus`. -/
structure CertificateStatus where
  domain : GoString
  status : GoString
  notAfter : GoString
  error : GoString
  deriving DecidableEq, Repr

/-- `mail.Report`. -/
structure Report where
  severity : GoString
  currentIPv4 : GoString
  currentIPv6 : GoString
  addressError : GoString
  records : List RecordStatus
  updatedCount : Nat
  failedCount : Nat
  unchangedCount : Nat
  certificates : List CertificateStatus
  deriving DecidableEq, Repr

/-- The report a pass starts from. -/
def Report.zero : Report := ⟨[], [], [], [], [], 0, 0, 0, []⟩

/-! ## The world -/

/-- What the outside world sees of a run. -/
inductive Event where
  /-- An A record set was created or overwritten for `record` with the address
  of `address`; `before` and `after` are what the zone held and holds. -/
  | writeA (record : Record) (address : Address) (before : Option RRSet)
      (after : RRSet)
  /-- A task was executed for a renewal event. -/
  | runTask (taskID : Int) (event : Trigger)
  /-- A background issuance was started with this snapshot of its record. -/
  | startIssuance (record : Record)
  /-- A report was handed to the mailer. -/
  | sendReport (report : Report)
  deriving DecidableEq, Repr

structure World where
  addresses : Table Address
  records : Table Record
  certificates : Table Certificate
  tasks : Table Task
  taskRuns : Table TaskRun
  certificateJobs : Table CertificateJob
  zones : Zones
  /-- The files of the data directory, by path. -/
  files : GoString → Option GoString
  /-- The keys of `pending`, the in-flight map. -/
  pending : Int → Bool
  events : List Event

/-- A freshly migrated database and an empty data directory beside the zones
as they are. -/
def World.init (zones : Zones) : World where
  addresses := .empty
  records := .empty
  certificates := .empty
  tasks := .empty
  taskRuns := .empty
  certificateJobs := .empty
  zones := zones
  files := fun _ => none
  pending := fun _ => false
  events := []

/-- Append to the event log. -/
def World.log (w : World) (e : Event) : World :=
  { w with events := w.events ++ [e] }

/-! ## External calls -/

/-- The SQL statements, API and webhook requests and file operations of the
modelled functions. -/
inductive Call where
  | getCurrentAddress | resetCurrentAddresses | createAddress | getAddressByID
  | listRecords | getRecord | createRecord | updateRecord | updateRecordAddress
  | deleteRecord | listTasks
  | getCertificateByRecord | createCertificate | updateCertificate
  | updateCertificateStatus | listCertificatesForRenewal
  | listAddresses | listCertificates | listCertificateJobsByRecord
  | listTaskRunsByRecord | listTasksByRecord
  | createCertificateJob | finishCertificateJob
  | listEnabledTasksByRecord | createTaskRun | updateTaskResult | finishTaskRun
  | getTask | createTask | updateTask
  | getRRSet | createRRSet | setRRSetRecords | deleteRRSet
  | requestTask
  | mkdirAll | openFile | writeFile | readFile
  deriving DecidableEq, Repr

/-- `certificate.Resource` of the ACME client: three PEM texts. -/
structure Resource where
  certificate : GoString
  issuerCertificate : GoString
  privateKey : GoString
  deriving DecidableEq, Repr

/-- The fields of a parsed leaf certificate that are stored. -/
structure Leaf where
  notBefore : Int
  notAfter : Int
  serialNumber : GoString
  deriving DecidableEq, Repr

/-- What a call of the server depends on besides the world: configuration,
the clock, and the code outside the repository. -/
structure Env where
  /-- The sort key of a text under the collation of the text columns: texts
  with equal keys are equal to a `UNIQUE` constraint, and `ORDER BY` follows
  the keys. -/
  collate : GoString → GoString
  /-- What `resolveWithConsensus` returns for each family. -/
  consensus4 : GoString × Option GoError
  consensus6 : GoString × Option GoError
  /-- `config.EncryptionKey()`. -/
  encryptionKey : GoString
  /-- The AES cipher: key and text to text. -/
  encrypt : GoString → GoString → Except GoError GoString
  decrypt : GoString → GoString → Except GoError GoString
  acmeEnabled : Bool
  acmeEmail : GoString
  renewBeforeDays : Int
  /-- `flag.Path`, the data directory. -/
  dataPath : GoString
  /-- `newACMEClient` for an e-mail address. -/
  newACMEClient : GoString → Except GoError Unit
  /-- `Challenge.SetDNS01Provider`. -/
  setDNS01Provider : Except GoError Unit
  /-- `Certificate.Obtain` for an account, an API token, a zone and its name,
  and the names of the certificate. -/
  obtain : GoString → GoString → Int → GoString → List GoString →
    Except GoError Resource
  /-- `pem.Decode`: the bytes of the first block, and the rest. -/
  pemDecode : GoString → Option (GoString × GoString)
  /-- `x509.ParseCertificate`. -/
  parseCertificate : GoString → Except GoError Leaf
  /-- The checks of `executeTask` on the URL of a task. -/
  taskEndpoint : Task → Except GoError Unit
  /-- The body of the request `executeTask` builds from the files on disk, for
  a task and the certificate row it includes, or what goes wrong before
  `client.Do`: with the body, the request or its headers. -/
  taskBody : (GoString → Option GoString) → Task → Option Certificate →
    Except GoError GoString
  /-- `client.Do` for the request of a task with a body: the status code of the
  response. -/
  requestTask : Task → GoString → Except GoError Int
  /-- `err.Error()` as the error package formats it. -/
  errorText : GoError → GoString
  /-- `t.Format("2006-01-02")`. -/
  formatDate : Int → GoString
  now : Int

/-- ASCII letters without their case: what the collation of the text columns
does to addresses and host names. -/
def foldCase (s : GoString) : GoString :=
  s.map fun b => if 0x41 ≤ b ∧ b ≤ 0x5A then b + 0x20 else b

/-- An environment for runs on concrete inputs: a key of the right length, a
cipher that leaves texts alone, an ACME server that issues what is asked for,
and webhooks that answer. -/
def Env.sample : Env where
  collate := foldCase
  consensus4 := ([], none)
  consensus6 := ([], none)
  encryptionKey := List.replicate 32 0
  encrypt := fun _ s => .ok s
  decrypt := fun _ s => .ok s
  acmeEnabled := false
  acmeEmail := "admin@example.org"
  renewBeforeDays := 30
  dataPath := "data"
  newACMEClient := fun _ => .ok ()
  setDNS01Provider := .ok ()
  obtain := fun _ _ _ _ domains =>
    .ok ⟨domains.headD [], "issuer", domains.headD []⟩
  pemDecode := fun pem => some (pem, [])
  parseCertificate := fun bytes => .ok ⟨0, 7776000, bytes⟩
  taskEndpoint := fun _ => .ok ()
  taskBody := fun _ task _ => .ok task.body.string
  requestTask := fun _ _ => .ok 200
  errorText := fun _ => "error"
  formatDate := fun _ => []
  now := 0

/-- A function of the server. -/
abbrev Handler (α : Type) := Prog Call World GoError α

/-- A text does not fit a `VARCHAR(n)` column. -/
def tooLong (n : Nat) (s : NullString) : Bool := n < s.string.runeCount

end Hdns.Ports.Schema

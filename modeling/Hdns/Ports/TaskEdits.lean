import Hdns.Ports.Operations

/-!
# Tasks and their headers

`UpsertTask` stores the webhook tasks of a record.  The HTTP headers of a task
are write-only: they are encrypted by `EncryptHeaders` before they reach the
database, `DecodeHeaders` reads them back when the task is executed, and no
answer of the API holds them.

## Main results

* `encryptHeaders_blank` — blank headers are stored as no headers.
* `decodeHeaders_encryptHeaders` — what has been encrypted is decoded to what it
  was parsed to.
-/

namespace Hdns.Ports.TaskEdits

open Hdns.Verified
open Hdns.Verified.GoString
open Hdns.Ports.Schema
open Hdns.Ports.UpdateAddress

/-! ## Headers -/

/-- A Go `map[string]string`, as what it maps each key to. -/
abbrev Headers := GoString → Option GoString

/-- The map without keys. -/
def Headers.empty : Headers := fun _ => none

/-- What the functions on tasks use of Go's library: the case mappings of
package `strings`, and `json.Unmarshal` into a `map[string]string`. -/
structure Library where
  toUpper : GoString → GoString
  toLower : GoString → GoString
  unmarshal : GoString → Except GoError Headers

/-- `EncryptHeaders`. -/
def encryptHeaders (env : Env) (lib : Library) (headersJSON : GoString) :
    Except GoError NullString :=
  let headersJSON := headersJSON.trimSpace
  if headersJSON = [] then .ok none
  else
    match lib.unmarshal headersJSON with
    | .error err =>
        .error (.because "headers must be a JSON object of string values" err)
    | .ok _ =>
        if env.encryptionKey.length ≠ 32 then
          .error (.newError "invalid encryption key")
        else
          match env.encrypt env.encryptionKey headersJSON with
          | .error err =>
              .error (.because "failed to encrypt task headers" err)
          | .ok stored => .ok (some stored)

/-- `DecodeHeaders`. -/
def decodeHeaders (env : Env) (lib : Library) (stored : NullString) :
    Except GoError Headers :=
  if stored.string = [] then .ok Headers.empty
  else if env.encryptionKey.length ≠ 32 then
    .error (.newError "invalid encryption key")
  else
    match env.decrypt env.encryptionKey stored.string with
    | .error err => .error (.because "failed to decrypt task headers" err)
    | .ok plain =>
        (lib.unmarshal plain).mapError (.because "failed to parse task headers")

/-! ## The format of a certificate payload -/

def certificateFormatPEM : GoString := "pem"
def certificateFormatPKCS12 : GoString := "pkcs12"

/-- `requiresPKCS12`. -/
def requiresPKCS12 (body : GoString) : Bool :=
  contains body "\x7b\x7bpkcs12\x7d\x7d" ||
    contains body "\x7b\x7bpkcs12_base64\x7d\x7d"

/-- `ResolveCertificateFormat`. -/
def resolveCertificateFormat (lib : Library) (format body : GoString) :
    GoString :=
  let format := lib.toLower format.trimSpace
  if format = certificateFormatPEM then certificateFormatPEM
  else if format = certificateFormatPKCS12 then certificateFormatPKCS12
  else if requiresPKCS12 body then certificateFormatPKCS12
  else certificateFormatPEM

/-! ## Messages and statements -/

/-- `service.Task` as a client sends it. -/
structure TaskInput where
  id : Int
  recordId : Int
  name : GoString
  triggerOn : Int32
  method : GoString
  url : GoString
  headers : GoString
  body : GoString
  enabled : Bool
  includeCertificate : Bool
  certificateFormat : GoString
  deriving DecidableEq, Repr

/-- `service.Task` as the server answers: without headers. -/
structure TaskProto where
  id : Int
  recordId : Int
  name : GoString
  triggerOn : Int32
  method : GoString
  url : GoString
  body : GoString
  enabled : Bool
  includeCertificate : Bool
  certificateFormat : GoString
  lastRun : Int
  lastStatus : GoString
  lastError : GoString
  deriving DecidableEq, Repr

/-- `taskToProto`: times are milliseconds there. -/
def taskToProto (t : Task) : TaskProto where
  id := t.id
  recordId := t.recordID
  name := t.name
  triggerOn := t.triggerOn.toInt32
  method := t.method
  url := t.url
  body := t.body.string
  enabled := t.enabled
  includeCertificate := t.includeCertificate
  certificateFormat := t.certificateFormat
  lastRun := t.lastRun.elim 0 (· * 1000)
  lastStatus := t.lastStatus.string
  lastError := t.lastError.string

/-- The columns `CreateTask` and `UpdateTask` set. -/
structure TaskParams where
  recordID : Int
  name : GoString
  triggerOn : Int8
  method : GoString
  url : GoString
  headers : NullString
  body : NullString
  enabled : Bool
  includeCertificate : Bool
  certificateFormat : GoString
  deriving DecidableEq, Repr

/-- A text does not fit a `TEXT` column, which is bounded in bytes. -/
def textTooLong (s : NullString) : Bool := 65535 < s.string.length

/-- A text is too long for its column. -/
def TaskParams.rejected (p : TaskParams) : Bool :=
  tooLong 255 (some p.name) || tooLong 8 (some p.method) ||
    tooLong 2048 (some p.url) || textTooLong p.headers ||
    textTooLong p.body || tooLong 16 (some p.certificateFormat)

/-- The task does not belong to a record. -/
def TaskParams.orphaned (p : TaskParams) (w : World) : Bool :=
  (w.records.find? p.recordID).isNone

/-- A row with these columns. -/
def TaskParams.apply (p : TaskParams) (t : Task) : Task :=
  { t with
    recordID := p.recordID
    name := p.name
    triggerOn := p.triggerOn
    method := p.method
    url := p.url
    headers := p.headers
    body := p.body
    enabled := p.enabled
    includeCertificate := p.includeCertificate
    certificateFormat := p.certificateFormat }

/-- What an `INSERT` leaves to the defaults of the columns. -/
def Task.blank (id : Int) : Task :=
  ⟨id, 0, [], 1, "POST", [], none, none, false, true, none, none, none,
    certificateFormatPEM⟩

/-- The error of a foreign key. -/
def noSuchRecord : GoError :=
  .external "Error 1452: foreign key constraint fails"

/-- `GetTask`. -/
def getTask (id : Int) : Handler Task :=
  .query .getTask .driver fun w =>
    match w.tasks.find? id with
    | some t => .ok t
    | none => .error .noRows

/-- The statement `CreateTask`. -/
def createTask (p : TaskParams) : Handler Int :=
  .call .createTask .driver fun w =>
    if p.rejected then (.error dataTooLong, w)
    else if p.orphaned w then
      (.error noSuchRecord, { w with tasks := w.tasks.burn })
    else
      (.ok w.tasks.next, { w with
        tasks := w.tasks.insert fun id => p.apply (Task.blank id) })

/-- The statement `UpdateTask`: no row with the id is no error. -/
def updateTask (id : Int) (p : TaskParams) : Handler Unit :=
  .call .updateTask .driver fun w =>
    if (w.tasks.find? id).isNone then (.ok (), w)
    else if p.rejected then (.error dataTooLong, w)
    else if p.orphaned w then (.error noSuchRecord, w)
    else
      (.ok (), { w with
        tasks := w.tasks.updateWhere (fun t => t.id == id) p.apply })

/-! ## `UpsertTask` -/

/-- The checks before the database is touched. -/
def checkTask (input : TaskInput) : Except GoError Unit :=
  if input.recordId = 0 then .error (.newError "task record id is required")
  else if input.name.trimSpace = [] then
    .error (.newError "task name is required")
  else if input.url.trimSpace = [] then
    .error (.newError "task url is required")
  else .ok ()

/-- The columns a request asks for. -/
def TaskInput.params (lib : Library) (input : TaskInput)
    (headers : NullString) : TaskParams where
  recordID := input.recordId
  name := input.name
  triggerOn := input.triggerOn.toInt8
  method :=
    let method := lib.toUpper input.method.trimSpace
    if method = [] then "POST" else method
  url := input.url
  headers := headers
  body := nullString input.body
  enabled := input.enabled
  includeCertificate := input.includeCertificate
  certificateFormat :=
    resolveCertificateFormat lib input.certificateFormat input.body

/-- `EncryptHeaders`, with the error `UpsertTask` returns. -/
def newHeaders (env : Env) (lib : Library) (input : TaskInput) :
    Handler NullString :=
  Prog.ofExcept ((encryptHeaders env lib input.headers).mapError
    (.because "invalid task headers"))

/-- The headers to store: an update without any keeps the existing ones. -/
def storedHeaders (env : Env) (lib : Library) (input : TaskInput) :
    Handler NullString :=
  if input.id = 0 then newHeaders env lib input
  else do
    let task ← (getTask input.id).mapError
      (.because "failed to fetch existing task from database")
    if input.headers ≠ [] then newHeaders env lib input
    else pure task.headers

/-- The statement of the switch of `UpsertTask`. -/
def storeTaskRow (lib : Library) (input : TaskInput) (headers : NullString) :
    Handler Int :=
  if input.id = 0 then
    (createTask (input.params lib headers)).mapError
      (.because "failed to create task in database")
  else do
    (updateTask input.id (input.params lib headers)).mapError
      (.because "failed to update task in database")
    pure input.id

/-- The callback of `UpsertTask`: store, then read back. -/
def saveTask (env : Env) (lib : Library) (input : TaskInput) :
    Handler Task := do
  let headers ← storedHeaders env lib input
  let id ← storeTaskRow lib input headers
  getTask id

/-- `UpsertTask`. -/
def upsertTask (env : Env) (lib : Library) (input : TaskInput) :
    Handler TaskProto := do
  Prog.ofExcept (checkTask input)
  let task ← (saveTask env lib input).mapError .wrap
  pure (taskToProto task)

/-! ## Encrypting and decoding -/

/-- The cipher of a deployment: texts it has encrypted are decrypted to what
they were, and none is encrypted to the empty text. -/
structure LawfulCipher (env : Env) : Prop where
  undoes : ∀ text stored, env.encrypt env.encryptionKey text = .ok stored →
    env.decrypt env.encryptionKey stored = .ok text
  nonempty : ∀ text, env.encrypt env.encryptionKey text ≠ .ok []

/-- What headers of a request stand for: blank ones for none. -/
def headersOf (lib : Library) (headersJSON : GoString) :
    Except GoError Headers :=
  if headersJSON.trimSpace = [] then .ok Headers.empty
  else lib.unmarshal headersJSON.trimSpace

section Headers

variable {env : Env} {lib : Library} {headersJSON : GoString}

theorem decodeHeaders_none : decodeHeaders env lib none = .ok Headers.empty :=
  rfl

theorem encryptHeaders_blank (h : headersJSON.trimSpace = []) :
    encryptHeaders env lib headersJSON = .ok none := if_pos h

/-- **Round trip** of the headers. -/
theorem decodeHeaders_encryptHeaders (hcipher : LawfulCipher env)
    {stored : NullString}
    (h : encryptHeaders env lib headersJSON = .ok stored) :
    decodeHeaders env lib stored = headersOf lib headersJSON := by
  unfold encryptHeaders at h
  unfold headersOf
  by_cases hblank : headersJSON.trimSpace = []
  · rw [if_pos hblank] at h
    obtain rfl := Except.ok.inj h
    rw [if_pos hblank, decodeHeaders_none]
  rw [if_neg hblank] at h
  rw [if_neg hblank]
  cases hparsed : lib.unmarshal headersJSON.trimSpace with
  | error err =>
      rw [hparsed] at h
      cases h
  | ok parsed =>
      rw [hparsed] at h
      by_cases hkey : env.encryptionKey.length ≠ 32
      · simp [hkey] at h
      · simp only [hkey, if_false] at h
        cases henc : env.encrypt env.encryptionKey headersJSON.trimSpace with
        | error err =>
            rw [henc] at h
            cases h
        | ok text =>
            rw [henc] at h
            obtain rfl := Except.ok.inj h
            have hne : text ≠ [] := by
              rintro rfl
              exact hcipher.nonempty _ henc
            have hplain := hcipher.undoes _ _ henc
            simp [decodeHeaders, NullString.string, hne, hkey, hplain, hparsed,
              Except.mapError]

end Headers

end Hdns.Ports.TaskEdits

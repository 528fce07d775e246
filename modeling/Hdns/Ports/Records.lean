import Hdns.Ports.Names
import Hdns.Ports.Service

/-!
# The API calls on records

`UpsertRecord` stores a record, refreshes its A record set and starts an
issuance for it; `Server.RefreshRecord` stores the public address and writes it
to the record's A record set.  The second does not go through the checks of
`dns.RefreshRecord`: it neither looks at the record's purpose nor at whether the
address has an IPv4, and it fires no tasks.
-/

namespace Hdns.Ports.Records

open Hdns.Verified
open Hdns.Verified.GoString
open Hdns.Ports.Schema
open Hdns.Ports.UpdateAddress
open Hdns.Ports.Hetzner
open Hdns.Ports.Tasks
open Hdns.Ports.Service
open Hdns.Ports.Names

/-! ## Messages -/

/-- `service.Record` as a client sends it. -/
structure RecordInput where
  id : Int
  token : GoString
  zoneId : Int
  domain : GoString
  name : GoString
  ttl : UInt32
  purpose : Int32
  includeWildcard : Bool
  acmeEmail : GoString
  deriving DecidableEq, Repr

/-- `service.Address`. -/
structure AddressProto where
  id : Int
  ipv4 : GoString
  ipv6 : GoString
  current : Bool
  deriving DecidableEq, Repr

def Address.toProto (a : Address) : AddressProto :=
  ⟨a.id, a.ipv4.string, a.ipv6.string, a.current⟩

/-- `service.Record` as the server answers. -/
structure RecordProto where
  id : Int
  zoneId : Int
  domain : GoString
  name : GoString
  ttl : UInt32
  addressId : Int
  purpose : Int32
  includeWildcard : Bool
  acmeEmail : GoString
  address : Option AddressProto
  deriving DecidableEq, Repr

def Record.toProto (r : Record) (address : Option Address) : RecordProto where
  id := r.id
  zoneId := r.zoneID
  domain := r.domain
  name := r.name
  ttl := r.ttl.toUInt32
  addressId := r.addressID.getD 0
  purpose := r.purpose.toInt32
  includeWildcard := r.includeWildcard
  acmeEmail := r.acmeEmail.string
  address := address.map Address.toProto

/-! ## Statements on the `records` table -/

/-- `GetRecord`. -/
def getRecord (id : Int) : Handler Record :=
  .query .getRecord .driver fun w =>
    match w.records.find? id with
    | some r => .ok r
    | none => .error .noRows

/-- `GetAddressByID`. -/
def getAddressByID (id : Int) : Handler Address :=
  .query .getAddressByID .driver fun w =>
    match w.addresses.find? id with
    | some a => .ok a
    | none => .error .noRows

/-- The columns `CreateRecord` and `UpdateRecord` set. -/
structure RecordParams where
  token : GoString
  zoneID : Int
  domain : GoString
  name : GoString
  ttl : Int32
  purpose : Int8
  includeWildcard : Bool
  acmeEmail : NullString
  deriving DecidableEq, Repr

/-- A text is too long for its column. -/
def RecordParams.rejected (p : RecordParams) : Bool :=
  tooLong 255 (some p.token) || tooLong 255 (some p.domain) ||
    tooLong 255 (some p.name) || tooLong 255 p.acmeEmail

/-- Another row than `id` has the unique key `(zone_id, name)`. -/
def RecordParams.taken (collate : GoString → GoString) (p : RecordParams)
    (id : Int) (t : Table Record) : Bool :=
  t.rows.any fun r => r.id != id && r.zoneID == p.zoneID &&
    collate r.name == collate p.name

/-- The statement `CreateRecord`. -/
def createRecord (env : Env) (p : RecordParams) : Handler Int :=
  .call .createRecord .driver fun w =>
    if p.rejected then (.error dataTooLong, w)
    else if p.taken env.collate w.records.next w.records then
      (.error duplicateEntry, { w with records := w.records.burn })
    else
      (.ok w.records.next, { w with
        records := w.records.insert fun id =>
          ⟨id, p.token, p.zoneID, p.domain, p.name, p.ttl, none, p.purpose,
            p.includeWildcard, p.acmeEmail⟩ })

/-- The statement `UpdateRecord`: no row with the id is no error. -/
def updateRecordRow (env : Env) (id : Int) (p : RecordParams) : Handler Unit :=
  .call .updateRecord .driver fun w =>
    if (w.records.find? id).isNone then (.ok (), w)
    else if p.rejected then (.error dataTooLong, w)
    else if p.taken env.collate id w.records then (.error duplicateEntry, w)
    else
      (.ok (), { w with
        records := w.records.updateWhere (fun r => r.id == id) fun r =>
          { r with
            token := p.token
            zoneID := p.zoneID
            domain := p.domain
            name := p.name
            ttl := p.ttl
            purpose := p.purpose
            includeWildcard := p.includeWildcard
            acmeEmail := p.acmeEmail } })

/-- The statement `CreateCertificate`, with the unique and the foreign key of
`record_id`. -/
def createCertificate (recordID : Int) (domains status : GoString) :
    Handler Int :=
  .call .createCertificate .driver fun w =>
    if (w.records.find? recordID).isNone then
      (.error (.external "Error 1452: foreign key constraint fails"), w)
    else if w.certificates.rows.any fun c => c.recordID == recordID then
      (.error duplicateEntry, { w with certificates := w.certificates.burn })
    else
      (.ok w.certificates.next, { w with
        certificates := w.certificates.insert fun id =>
          ⟨id, recordID, domains, status, none, none, none, none, [], []⟩ })

/-! ## Starting an issuance -/

/-- `ensureCertificateRow`. -/
def ensureCertificateRow (record : Record) (domains : List GoString) :
    Handler Int :=
  Prog.mapError (.because "failed to prepare certificate record") do
    match ← (getCertificateByRecord record.id).attempt with
    | .ok existing => pure existing.id
    | .error .noRows =>
        createCertificate record.id (joinDomains domains) "pending"
    | .error err => Prog.throw err

/-- `pending.LoadOrStore`, by whether the key was there. -/
def loadOrStore (id : Int) : Handler Bool := do
  let w ← Prog.get
  Prog.modify fun w =>
    { w with pending := fun i => if i = id then true else w.pending i }
  pure (w.pending id)

/-- `pending.Delete`. -/
def deletePending (id : Int) : Handler Unit :=
  Prog.modify fun w =>
    { w with pending := fun i => if i = id then false else w.pending i }

/-- Make the certificate row visible, then hand over to the background
goroutine; the slot is given back when the row cannot be prepared. -/
def prepareIssuance (record : Record) : Handler Unit := do
  match ← (ensureCertificateRow record (buildDomains record)).attempt with
  | .error err =>
      deletePending record.id
      Prog.throw err.wrap
  | .ok _ => Prog.modify (·.log (.startIssuance record))

/-- The checks before an issuance, and the reservation of its slot. -/
def takeSlot (env : Env) (record : Record) : Handler Unit := do
  if ¬recordDoesCert record.purpose then
    Prog.throw (.newError "record is not configured for certificate issuance")
  else if ¬env.acmeEnabled then Prog.throw (.newError "ACME is not enabled")
  else
    let loaded ← loadOrStore record.id
    if loaded then
      Prog.throw (.newError
        "certificate issuance is already in progress for this record")
    else pure ()

/-- `StartIssuance`, up to the point where the background goroutine takes
over. -/
def startIssuance (env : Env) (recordID : Int) : Handler Unit := do
  let record ← (getRecord recordID).mapError (.because "failed to load record")
  takeSlot env record
  prepareIssuance record

/-! ## `UpsertRecord` -/

/-- The checks and the encryption before the database is touched. -/
def checkInput (env : Env) (input : RecordInput) :
    Except GoError GoString :=
  if input.token.trimSpace = [] ∧ input.id = 0 then
    .error (.newError "record token is required")
  else if input.zoneId = 0 then .error (.newError "zone ID is required")
  else if input.domain.trimSpace = [] then
    .error (.newError "record domain is required")
  else if input.name.trimSpace = [] then
    .error (.newError "record name is required")
  else if env.encryptionKey.length ≠ 32 then
    .error (.newError "invalid token encryption key")
  else
    (env.encrypt env.encryptionKey input.token).mapError
      (.because "failed to encrypt record token")

/-- The columns a request asks for. -/
def RecordInput.params (input : RecordInput) (token : GoString) :
    RecordParams where
  token := token
  zoneID := input.zoneId
  domain := input.domain
  name := input.name
  ttl := input.ttl.toInt32
  purpose := input.purpose.toInt8
  includeWildcard := input.includeWildcard
  acmeEmail := nullString input.acmeEmail

/-- The token to store: the existing one where an update supplies none. -/
def storedToken (input : RecordInput) (encrypted : GoString) :
    Handler GoString :=
  if input.id ≠ 0 ∧ input.token = [] then do
    let existing ← (getRecord input.id).mapError
      (.because "failed to fetch existing record from database")
    pure existing.token
  else pure encrypted

/-- The statement of the switch of `UpsertRecord`: insert for id 0, else
update. -/
def storeRow (env : Env) (input : RecordInput) (token : GoString) :
    Handler Int :=
  if input.id = 0 then
    (createRecord env (input.params token)).mapError
      (.because "failed to create record in database")
  else do
    (updateRecordRow env input.id (input.params token)).mapError
      (.because "failed to update record in database")
    pure input.id

/-- The switch of `UpsertRecord`. -/
def storeRecord (env : Env) (input : RecordInput) (encrypted : GoString) :
    Handler Int := do
  let token ← storedToken input encrypted
  storeRow env input token

/-- The callback of `UpsertRecord`: store, then read back. -/
def saveRecord (env : Env) (input : RecordInput) (encrypted : GoString) :
    Handler Record := do
  let id ← storeRecord env input encrypted
  (getRecord id).mapError (.because "failed to fetch record from database")

/-- Start an issuance for a saved record; a refusal is only logged. -/
def issueAfterSave (env : Env) (record : Record) : Handler Unit :=
  if recordDoesCert record.purpose ∧ env.acmeEnabled then do
    let _ ← (startIssuance env record.id).attempt
    pure ()
  else pure ()

/-- The answer, with the stored address of the record. -/
def answer (record : Record) : Handler RecordProto :=
  match record.addressID with
  | none => pure (Record.toProto record none)
  | some addressID => do
      let address ← (getAddressByID addressID).mapError fun err =>
        .wrap (.because "failed to fetch address from database" err)
      pure (Record.toProto record (some address))

/-- What follows the save: refresh, issuance and the answer. -/
def afterSave (env : Env) (record : Record) : Handler RecordProto := do
  let record ← (refreshRecord env record).mapError
    (.because "failed to refresh record")
  issueAfterSave env record
  answer record

/-- `UpsertRecord`. -/
def upsertRecord (env : Env) (input : RecordInput) : Handler RecordProto := do
  let encrypted ← Prog.ofExcept (checkInput env input)
  let record ← (saveRecord env input encrypted).mapError .wrap
  afterSave env record

/-! ## `RefreshRecord` and `RefreshAddress` of the API -/

/-- The callback of `Server.RefreshRecord`. -/
def refreshStored (env : Env) (id : Int) : Handler (Record × Address) := do
  let record ← (getRecord id).mapError
    (.because "failed to fetch record from database")
  let address ← (updateAddress env).mapError
    (.because "failed to update public IP address")
  let record ← (updateRecord env record address).mapError
    (.because "failed to update DNS record")
  pure (record, address)

/-- `Server.RefreshRecord`. -/
def Server.refreshRecord (env : Env) (id : Int) : Handler RecordProto := do
  let (record, address) ← (refreshStored env id).mapError .wrap
  -- `UpdateRecord` has set the address id
  pure (Record.toProto record (record.addressID.map fun _ => address))

/-- `Server.RefreshAddress`. -/
def Server.refreshAddress (env : Env) : Handler AddressProto := do
  let address ← (updateAddress env).mapError
    (.because "failed to refresh address")
  pure (Address.toProto address)

/-! ## The tables a statement touches -/

/-- A certificate that is found is a stored row. -/
theorem getCertificateByRecord_spec (o : Oracle Call) (recordID : Int)
    (s : Sys World) :
    (getCertificateByRecord recordID).wp o s fun r t =>
      t.state = s.state ∧ ∀ c, r = .ok c → c ∈ s.state.certificates.rows := by
  refine Prog.wp_query_of ⟨rfl, fun c hc => ?_⟩ ⟨rfl, nofun⟩
  cases hfind : s.state.certificates.rows.find?
      fun c => c.recordID == recordID with
  | none =>
      rw [hfind] at hc
      cases hc
  | some c' =>
      rw [hfind] at hc
      obtain rfl := Except.ok.inj hc
      exact List.mem_of_find?_eq_some hfind

/-- The world after `CreateCertificate` has inserted its row. -/
def certificateInserted (recordID : Int) (domains status : GoString)
    (w : World) : World :=
  { w with
    certificates := w.certificates.insert fun id =>
      ⟨id, recordID, domains, status, none, none, none, none, [], []⟩ }

/-- What `CreateCertificate` does: nothing, or a key is lost, or a record
without a row gets one. -/
inductive CertificateCreated (recordID : Int) (domains status : GoString)
    (w : World) : World → Prop
  | kept : CertificateCreated recordID domains status w w
  | burned : CertificateCreated recordID domains status w
      { w with certificates := w.certificates.burn }
  | inserted (hnone : (w.certificates.rows.find? fun c =>
        c.recordID == recordID) = none) :
      CertificateCreated recordID domains status w
        (certificateInserted recordID domains status w)

theorem createCertificate_spec (o : Oracle Call) (recordID : Int)
    (domains status : GoString) (s : Sys World) :
    (createCertificate recordID domains status).wp o s fun r t =>
      CertificateCreated recordID domains status s.state t.state ∧
        ∀ certID, r = .ok certID →
          certID = s.state.certificates.next ∧
          (s.state.certificates.rows.find? fun c =>
            c.recordID == recordID) = none ∧
          t.state = certificateInserted recordID domains status s.state := by
  have hfind : (¬(s.state.certificates.rows.any fun c =>
      c.recordID == recordID) = true) → (s.state.certificates.rows.find?
        fun c => c.recordID == recordID) = none := by
    intro hnone
    simpa [List.find?_eq_none] using hnone
  unfold createCertificate
  refine Prog.wp_call_of ?_ (fun _ => ⟨.kept, by rintro _ ⟨⟩⟩) fun _ => ?_
  · split
    · exact ⟨.kept, by rintro _ ⟨⟩⟩
    · split
      · exact ⟨.burned, by rintro _ ⟨⟩⟩
      · next hnone =>
        refine ⟨.inserted (hfind hnone), fun certID hid => ?_⟩
        exact ⟨(Except.ok.inj hid).symm, hfind hnone, rfl⟩
  · split
    · exact ⟨.kept, by rintro _ ⟨⟩⟩
    · split
      · exact ⟨.burned, by rintro _ ⟨⟩⟩
      · next hnone => exact ⟨.inserted (hfind hnone), by rintro _ ⟨⟩⟩

section Keeps

variable {o : Oracle Call} {R : World → World → Prop}

/-- The statement of a save touches the records only. -/
theorem storeRow_keeps (hrefl : ∀ w, R w w)
    (htrans : ∀ w₁ w₂ w₃, R w₁ w₂ → R w₂ w₃ → R w₁ w₃)
    (hrecords : ∀ (w : World) (t : Table Record), R w { w with records := t })
    (env : Env) (input : RecordInput) (token : GoString) :
    Prog.Keeps o R (storeRow env input token) := by
  refine .ite (fun _ => .mapError (.call hrefl fun w => ?_) _) fun _ => ?_
  · split
    · exact hrefl w
    · split
      · exact hrecords w _
      · exact hrecords w _
  · refine .bind htrans (.mapError (.call hrefl fun w => ?_) _)
      fun _ => .pure hrefl _
    split
    · exact hrefl w
    · split
      · exact hrefl w
      · split
        · exact hrefl w
        · exact hrecords w _

/-- A new certificate row touches the certificates only. -/
theorem createCertificate_keeps (hrefl : ∀ w, R w w)
    (hrows : ∀ (w : World) (t : Table Certificate),
      R w { w with certificates := t })
    (recordID : Int) (domains status : GoString) :
    Prog.Keeps o R (createCertificate recordID domains status) := by
  intro s
  refine Prog.wp_mono (createCertificate_spec o _ _ _ s) ?_
  rintro r ⟨w', n⟩ ⟨hcreated, -⟩
  cases hcreated with
  | kept => exact hrefl s.state
  | burned => exact hrows s.state _
  | inserted => exact hrows s.state _

theorem ensureCertificateRow_keeps (hrefl : ∀ w, R w w)
    (htrans : ∀ w₁ w₂ w₃, R w₁ w₂ → R w₂ w₃ → R w₁ w₃)
    (hrows : ∀ (w : World) (t : Table Certificate),
      R w { w with certificates := t })
    (record : Record) (domains : List GoString) :
    Prog.Keeps o R (ensureCertificateRow record domains) := by
  refine .mapError (.bind htrans (.attempt (.query hrefl)) fun r => ?_) _
  split
  · exact .pure hrefl _
  · exact createCertificate_keeps hrefl hrows _ _ _
  · exact .throw hrefl _

/-- The reservation of a slot touches the slots only. -/
theorem takeSlot_keeps (hrefl : ∀ w, R w w)
    (htrans : ∀ w₁ w₂ w₃, R w₁ w₂ → R w₂ w₃ → R w₁ w₃)
    (hslots : ∀ (w : World) (p : Int → Bool), R w { w with pending := p })
    (env : Env) (record : Record) : Prog.Keeps o R (takeSlot env record) := by
  refine .ite (fun _ => .throw hrefl _) fun _ => ?_
  refine .ite (fun _ => .throw hrefl _) fun _ => ?_
  refine .bind htrans ?_ fun loaded =>
    .ite (fun _ => .throw hrefl _) fun _ => .pure hrefl _
  refine .bind htrans (.get hrefl) fun _ => ?_
  exact .bind htrans (.modify fun w => hslots w _) fun _ => .pure hrefl _

end Keeps

end Hdns.Ports.Records

import Hdns.Ports.CertificateReports
import Hdns.Verified.Decimal
import Hdns.Verified.ReadOnly
import Hdns.Verified.RequestUri

/-!
# Downloading certificates

`GetCertificateDetails` lists what can be downloaded of a record's certificate,
each with a link, and the page makes the same link itself.  The handler behind
the link reads the record and the artifact off the query, the certificate from
the database and the files from the disk.

Of packages outside, the parsing and encoding of `buildPKCS12Archive` and
`strings.ToLower` are parameters.

## Main results

* `links_are_served` — a link is read back, and answered with the artifact if it
  was listed as available, the archive if what was read can be encoded, and with
  an error otherwise.
* `only_listed_is_served` — whatever the request is, an answer that is no error
  is an artifact that the details of a record list as available.
-/

namespace Hdns.Ports.CertificateDownloads

open Hdns.Verified
open Hdns.Verified.GoString
open Hdns.Verified.Decimal
open Hdns.Verified.RequestUri
open Hdns.Verified.GoUrl (Url Values)
open Hdns.Ports.Schema
open Hdns.Ports.Tasks
open Hdns.Ports.Service
open Hdns.Ports.Records
open Hdns.Ports.Certificates
open Hdns.Ports.CertificateFiles
open Hdns.Ports.CertificateReports

/-! ## Links -/

def downloadPath : GoString := "/api/certificates/download"

/-- `getCertificateDownloadUrl` of the page, behind its base URL. -/
def getCertificateDownloadUrl (recordId : Int) (artifact : GoString) :
    GoString :=
  downloadPath ++ lit "?record_id=" ++ formatInt recordId ++
    lit "&artifact=" ++ encodeURIComponent artifact

/-! ## Requests and answers -/

/-- What the handler uses of a request. -/
structure Request where
  method : GoString
  url : Url

/-- What the handler writes. -/
structure Response where
  status : Nat
  header : List (GoString × GoString)
  body : GoString
  deriving DecidableEq, Repr

/-- `http.Error`. -/
def httpError (error : GoString) (code : Nat) : Response where
  status := code
  header := [("Content-Type", "text/plain; charset=utf-8"),
    ("X-Content-Type-Options", "nosniff")]
  body := error ++ lit "\n"

/-- What is used of other packages. -/
structure Library where
  /-- `strings.ToLower`. -/
  toLower : GoString → GoString
  /-- The parsing and encoding of what `buildPKCS12Archive` has read. -/
  encode : GoString → GoString → Except GoError GoString

/-- `strings.ToLower`, for ASCII. -/
def Library.Lawful (lib : Library) : Prop :=
  ∀ s : GoString, (∀ b ∈ s, b < 0x80) → lib.toLower s = GoUrl.toLower s

/-! ## `CertificateDownloadHandler` -/

/-- `certificateFileBase`. -/
def certificateFileBase (record : Record) : GoString :=
  let domain := record.domain.trimSuffix "."
  if record.name = [] ∨ record.name = lit "@" then
    domain.replaceAll "*" "wildcard"
  else
    let name := record.name.replaceAll "*" "wildcard"
    (name ++ lit "." ++ domain).replaceAll "*" "wildcard"

/-- `parseRecordID`, with the answer to a request without one. -/
def parseRecordID (r : Request) : Except Response Int :=
  match Json.parseInt (get r.url.query "record_id").trimSpace with
  | some recordID =>
      if recordID ≤ 0 then
        .error (httpError "valid record_id is required" 400)
      else .ok recordID
  | none => .error (httpError "valid record_id is required" 400)

theorem parseRecordID_refuses {r : Request} {response : Response}
    (h : parseRecordID r = .error response) : response.status ≠ 200 := by
  unfold parseRecordID at h
  split at h
  · split at h
    · cases h
      decide
    · cases h
  · cases h
    decide

/-- The rows the handler loads. -/
def downloadRows (recordID : Int) : Handler (Record × Certificate) := do
  let record ← getRecord recordID
  let cert ← getCertificateByRecord recordID
  pure (record, cert)

/-- Where the content of an artifact is read from. -/
inductive Source where
  | file (path : GoString)
  | archive (fullchainPath keyPath : GoString)
  deriving DecidableEq, Repr

/-- A case of the switch: `fileName`, `contentType`, and where `payload` comes
from. -/
structure Download where
  fileName : GoString
  contentType : GoString
  source : Source
  deriving DecidableEq, Repr

/-- The switch over the artifact. -/
def download (baseName : GoString) (cert : Certificate) (artifact : GoString) :
    Option Download :=
  let certDir := GoPath.dir cert.certPath
  if artifact = lit "cert" then
    some ⟨baseName ++ lit "-cert.pem", "application/x-pem-file",
      .file (pathIn certDir certPem)⟩
  else if artifact = lit "chain" then
    some ⟨baseName ++ lit "-chain.pem", "application/x-pem-file",
      .file (pathIn certDir chainPem)⟩
  else if artifact = lit "fullchain" then
    some ⟨baseName ++ lit "-fullchain.pem", "application/x-pem-file",
      .file cert.certPath⟩
  else if artifact = lit "privkey" then
    some ⟨baseName ++ lit "-privkey.pem", "application/x-pem-file",
      .file cert.keyPath⟩
  else if artifact = lit "pkcs12" then
    some ⟨baseName ++ lit ".p12", "application/x-pkcs12",
      .archive cert.certPath cert.keyPath⟩
  else none

/-- Reading the payload. -/
def Source.read (lib : Library) : Source → Handler GoString
  | .file path => readFile path
  | .archive fullchainPath keyPath =>
      buildPKCS12Archive lib.encode fullchainPath keyPath

/-- The answer with the payload. -/
def Download.respond (d : Download) (payload : GoString) : Response where
  status := 200
  header := [("Content-Type", d.contentType),
    ("Content-Disposition",
      lit "attachment; filename=\"" ++ d.fileName ++ lit "\"")]
  body := payload

/-- The artifact of a certificate that was found. -/
def serveArtifact (lib : Library) (record : Record) (cert : Certificate)
    (artifact : GoString) : Handler Response :=
  if cert.certPath = [] ∨ cert.keyPath = [] then
    pure (httpError "certificate has no downloadable artifacts" 404)
  else
    match download (certificateFileBase record) cert artifact with
    | none => pure (httpError "unsupported artifact" 400)
    | some d => do
        match ← (d.source.read lib).attempt with
        | .error _ => pure (httpError "failed to read artifact" 500)
        | .ok payload => pure (d.respond payload)

/-- The handler behind the checks of the request. -/
def serveRecord (lib : Library) (recordID : Int) (artifact : GoString) :
    Handler Response := do
  match ← (downloadRows recordID).attempt with
  | .error .noRows => pure (httpError "certificate not found" 404)
  | .error _ => pure (httpError "failed to load certificate" 500)
  | .ok (record, cert) => serveArtifact lib record cert artifact

/-- `CertificateDownloadHandler`. -/
def certificateDownloadHandler (lib : Library) (r : Request) :
    Handler Response :=
  if r.method ≠ "GET" then pure (httpError "method not allowed" 405)
  else
    match parseRecordID r with
    | .error response => pure response
    | .ok recordID =>
        let artifact := lib.toLower (get r.url.query "artifact").trimSpace
        if artifact = [] then pure (httpError "artifact is required" 400)
        else serveRecord lib recordID artifact

/-! ## From a link to the record -/

private theorem downloadPath_plain : Plain downloadPath where
  rooted := rfl
  unescaped := by decide +kernel
  visible := by decide +kernel

/-- The parameters of a link. -/
def parameters (recordId : Int) (artifact : GoString) : Values :=
  [("record_id", formatInt recordId), ("artifact", artifact)]

theorem isUnreserved_of_isDigit : ∀ b : UInt8, Json.isDigit b = true →
    isUnreserved b = true := by
  intro b hb
  simp only [isUnreserved, GoEscape.isAlphanumeric, Bool.or_eq_true]
  exact .inl (.inl (.inl hb))

theorem getCertificateDownloadUrl_eq {recordId : Int} (h : 0 ≤ recordId)
    (artifact : GoString) :
    getCertificateDownloadUrl recordId artifact =
      downloadPath ++ GoUrl.question ::
        writtenQuery (parameters recordId artifact) := by
  have hnumber : encodeURIComponent (formatInt recordId) =
      formatInt recordId := by
    apply encodeURIComponent_of_unreserved
    intro b hb
    rw [formatInt_digits h] at hb
    exact isUnreserved_of_isDigit b (mem_digits hb)
  have hkeys : encodeURIComponent (lit "record_id") = lit "record_id" ∧
      encodeURIComponent (lit "artifact") = lit "artifact" := by decide
  simp only [writtenQuery, parameters, List.map_cons, List.map_nil,
    GoString.join_cons_next, writtenPair, hnumber, hkeys]
  simp only [getCertificateDownloadUrl, GoString.join, List.intersperse_singleton,
    List.flatten_cons, List.flatten_nil, List.append_nil, List.append_assoc]
  rfl

/-- **A link is read back.** -/
theorem parseRequestURI_link {recordId : Int} (h : 0 ≤ recordId)
    (artifact : GoString) :
    ∃ u, parseRequestURI (getCertificateDownloadUrl recordId artifact) = .ok u ∧
      u.query = parameters recordId artifact := by
  rw [getCertificateDownloadUrl_eq h]
  refine ⟨_, parseRequestURI_written downloadPath_plain (by simp [parameters]),
    ?_⟩
  apply query_written rfl
  show 2 ≤ GoUrl.maxQueryParams
  decide

/-- A digit is no space. -/
private theorem digits_trimSpace (n : Nat) :
    GoString.trimSpace (digits n) = digits n := by
  apply trimSpace_of_ascii
  have hdigit : ∀ b : UInt8, Json.isDigit b = true →
      b < 0x80 ∧ isSpace b.toNat = false := forall_byte (by decide +kernel)
  exact fun b hb => hdigit b (mem_digits hb)

theorem parseRecordID_link {recordId : Int} (hpos : 0 < recordId)
    (hlt : recordId < 2 ^ 63) {r : Request} {artifact : GoString}
    (hquery : r.url.query = parameters recordId artifact) :
    parseRecordID r = .ok recordId := by
  have hget : get (parameters recordId artifact) "record_id" =
      formatInt recordId := rfl
  have htext : (get r.url.query "record_id").trimSpace = formatInt recordId := by
    rw [hquery, hget, formatInt_digits (by omega), digits_trimSpace]
  rw [parseRecordID, htext, parseInt_formatInt (by omega) hlt]
  exact if_neg (by omega)

/-! ## The artifacts that are listed -/

/-- The content of an artifact. -/
def Source.content (lib : Library) (src : Source) (w : World) :
    Option GoString :=
  match src with
  | .file path => w.files path
  | .archive fullchainPath keyPath => do
      let fullchain ← w.files fullchainPath
      let privKey ← w.files keyPath
      (lib.encode fullchain privKey).toOption

/-- What an artifact is read from is there. -/
def Source.present (w : World) : Source → Bool
  | .file path => fileExists w path
  | .archive fullchainPath keyPath =>
      fileExists w fullchainPath && fileExists w keyPath

/-- **What is listed can be asked for**, and it is available if what it is read
from is there. -/
theorem download_listed (w : World) (baseName : GoString) (cert : Certificate)
    {k : GoString × GoString} (hk : k ∈ artifactKeys) :
    ∃ d, download baseName cert k.1 = some d ∧
      availableFiles w cert k.1 = d.source.present w := by
  simp only [artifactKeys, List.mem_cons, List.not_mem_nil, or_false] at hk
  rcases hk with rfl | rfl | rfl | rfl | rfl
  all_goals exact ⟨_, rfl, rfl⟩

/-- **Nothing else can be asked for.** -/
theorem listed_of_download {baseName : GoString} {cert : Certificate}
    {artifact : GoString} {d : Download}
    (h : download baseName cert artifact = some d) :
    ∃ k ∈ artifactKeys, k.1 = artifact := by
  simp only [download] at h
  split_ifs at h with h1 h2 h3 h4 h5
  · exact ⟨("cert", "cert.pem"), by simp [artifactKeys], h1.symm⟩
  · exact ⟨("chain", "chain.pem"), by simp [artifactKeys], h2.symm⟩
  · exact ⟨("fullchain", "fullchain.pem"), by simp [artifactKeys], h3.symm⟩
  · exact ⟨("privkey", "privkey.pem"), by simp [artifactKeys], h4.symm⟩
  · exact ⟨("pkcs12", "certificate.p12"), by simp [artifactKeys], h5.symm⟩

/-- The archive is made of the files of the certificate. -/
theorem download_archive {baseName : GoString} {cert : Certificate}
    {artifact fullchainPath keyPath : GoString} {d : Download}
    (h : download baseName cert artifact = some d)
    (hsource : d.source = .archive fullchainPath keyPath) :
    artifact = lit "pkcs12" ∧ fullchainPath = cert.certPath ∧
      keyPath = cert.keyPath := by
  simp only [download] at h
  split_ifs at h with h1 h2 h3 h4 h5
  · cases Option.some.inj h
    cases hsource
  · cases Option.some.inj h
    cases hsource
  · cases Option.some.inj h
    cases hsource
  · cases Option.some.inj h
    cases hsource
  · cases Option.some.inj h
    cases hsource
    exact ⟨h5, rfl, rfl⟩

/-- The link that is listed is the one that the page makes. -/
theorem downloadUrl_listed {w : World} {recordID : Int}
    {cert : Option Certificate} {a : CertificateArtifact}
    (ha : a ∈ buildProtoArtifacts w recordID cert) :
    a.key ∈ artifactKeys.map (·.1) ∧
      a.downloadUrl = getCertificateDownloadUrl recordID a.key := by
  obtain ⟨k, hk, rfl⟩ := List.mem_map.mp ha
  refine ⟨List.mem_map_of_mem hk, ?_⟩
  have hplain : ∀ k ∈ artifactKeys, encodeURIComponent k.1 = k.1 := by decide
  have hpath : lit "/api/certificates/download?record_id=" =
      downloadPath ++ lit "?record_id=" := by decide
  simp only [getCertificateDownloadUrl, hplain k hk, hpath, formatInt]

/-- An artifact is listed once. -/
theorem listed_once {w : World} {recordID : Int} {cert : Option Certificate}
    {a a' : CertificateArtifact} (ha : a ∈ buildProtoArtifacts w recordID cert)
    (ha' : a' ∈ buildProtoArtifacts w recordID cert) (h : a.key = a'.key) :
    a = a' := by
  obtain ⟨k, hk, rfl⟩ := List.mem_map.mp ha
  obtain ⟨k', hk', rfl⟩ := List.mem_map.mp ha'
  have hkeys : ∀ k ∈ artifactKeys, ∀ k' ∈ artifactKeys, k.1 = k'.1 → k = k' := by
    decide
  rw [hkeys k hk k' hk' h]

theorem present_of_content {lib : Library} {w : World} {src : Source}
    {payload : GoString} (h : src.content lib w = some payload) :
    src.present w = true := by
  cases src with
  | file path =>
      have hfile : w.files path = some payload := h
      simp [Source.present, fileExists, hfile]
  | archive fullchainPath keyPath =>
      obtain ⟨fullchain, hfullchain, h⟩ := Option.bind_eq_some_iff.mp h
      obtain ⟨privKey, hkey, -⟩ := Option.bind_eq_some_iff.mp h
      simp [Source.present, fileExists, hfullchain, hkey]

/-- The certificate of a record. -/
def certificateOf (w : World) (recordID : Int) : Option Certificate :=
  w.certificates.rows.find? fun c => c.recordID == recordID

/-- The answer is an artifact of the record, with its content. -/
def Delivers (lib : Library) (w : World) (recordID : Int) (artifact : GoString)
    (resp : Response) : Prop :=
  ∃ record cert d payload,
    w.records.find? recordID = some record ∧
    certificateOf w recordID = some cert ∧
    (cert.certPath ≠ [] ∧ cert.keyPath ≠ []) ∧
    download (certificateFileBase record) cert artifact = some d ∧
    d.source.content lib w = some payload ∧
    resp = d.respond payload

/-- The artifact is listed as available. -/
def Listed (w : World) (recordID : Int) (artifact : GoString) : Prop :=
  ∃ a ∈ buildProtoArtifacts w recordID (certificateOf w recordID),
    a.key = artifact ∧ a.available = true

theorem Delivers.listed {lib : Library} {w : World} {recordID : Int}
    {artifact : GoString} {resp : Response}
    (h : Delivers lib w recordID artifact resp) : Listed w recordID artifact := by
  obtain ⟨record, cert, d, payload, -, hcert, hpaths, hd, hpayload, -⟩ := h
  obtain ⟨k, hk, rfl⟩ := listed_of_download hd
  obtain ⟨d', hd', havailable⟩ := download_listed w (certificateFileBase record)
    cert hk
  obtain rfl : d' = d := Option.some.inj (hd'.symm.trans hd)
  refine ⟨_, List.mem_map.mpr ⟨k, hk, rfl⟩, rfl, ?_⟩
  simp [hcert, hpaths, havailable, present_of_content hpayload]

/-! ## The handler -/

section Handler

variable {lib : Library}

theorem readFile_reads (path : GoString) :
    Prog.Reads (fun w => w.files path) (readFile path) := by
  apply Prog.Reads.query
  intro w
  cases w.files path <;> rfl

/-- What the payload is read from is its content. -/
theorem Source.read_reads (src : Source) :
    Prog.Reads (src.content lib) (src.read lib) := by
  cases src with
  | file path => exact readFile_reads path
  | archive fullchainPath keyPath =>
      have hfiles : Prog.Reads (fun w : World =>
          (w.files fullchainPath).bind fun fullchain =>
            (w.files keyPath).bind fun privKey => some (fullchain, privKey))
          (readArchiveFiles fullchainPath keyPath) :=
        Prog.Reads.bind (readFile_reads _) fun _ =>
          Prog.Reads.bind (readFile_reads _) fun _ => Prog.Reads.pure _
      have harchive := Prog.Reads.bind hfiles fun files =>
        Prog.Reads.ofExcept (lib.encode files.1 files.2)
      simp only [Option.bind_assoc, Option.bind_some] at harchive
      exact harchive

theorem downloadRows_reads (recordID : Int) :
    Prog.Reads (fun w : World => (w.records.find? recordID).bind fun record =>
      (certificateOf w recordID).bind fun cert => some (record, cert))
      (downloadRows recordID) := by
  have hrecord : Prog.Reads (fun w : World => w.records.find? recordID)
      (getRecord recordID) := by
    apply Prog.Reads.query
    intro w
    cases w.records.find? recordID <;> rfl
  have hcert : Prog.Reads (fun w : World => certificateOf w recordID)
      (getCertificateByRecord recordID) := by
    apply Prog.Reads.query
    intro w
    simp only [certificateOf]
    cases w.certificates.rows.find? fun c => c.recordID == recordID <;> rfl
  exact Prog.Reads.bind hrecord fun _ =>
    Prog.Reads.bind hcert fun _ => Prog.Reads.pure _

/-- How the handler ends: the state is left alone, an answer that is no error is
an artifact, and the artifact is the answer unless a call goes wrong. -/
def Ends (lib : Library) (recordID : Int) (artifact : GoString)
    (o : Oracle Call) (s : Sys World) (r : Except GoError Response)
    (t : Sys World) : Prop :=
  t.state = s.state ∧ ∃ resp, r = .ok resp ∧
    (resp.status = 200 → Delivers lib s.state recordID artifact resp) ∧
    (o = .quiet → ∀ resp', Delivers lib s.state recordID artifact resp' →
      resp = resp')

/-- The answer is an error, and there is nothing else to answer. -/
private theorem ends_error {recordID : Int} {artifact : GoString}
    {o : Oracle Call} {s t : Sys World} {error : GoString} {code : Nat}
    (hstate : t.state = s.state) (hcode : code ≠ 200)
    (hnone : o = .quiet → ∀ resp', ¬Delivers lib s.state recordID artifact resp') :
    Ends lib recordID artifact o s (.ok (httpError error code)) t :=
  ⟨hstate, _, rfl, fun h => absurd h hcode,
    fun ho resp' hresp => absurd hresp (hnone ho resp')⟩

/-- The artifact of the rows that were loaded. -/
theorem serveArtifact_ends {recordID : Int} {artifact : GoString}
    {o : Oracle Call} {s t : Sys World} {record : Record} {cert : Certificate}
    (hstate : t.state = s.state)
    (hrecord : s.state.records.find? recordID = some record)
    (hcert : certificateOf s.state recordID = some cert) :
    (serveArtifact lib record cert artifact).wp o t
      (Ends lib recordID artifact o s) := by
  -- what can be delivered is read off the rows
  have hrows : ∀ resp', Delivers lib s.state recordID artifact resp' →
      (cert.certPath ≠ [] ∧ cert.keyPath ≠ []) ∧
      ∃ d payload, download (certificateFileBase record) cert artifact = some d ∧
        d.source.content lib s.state = some payload ∧
        resp' = d.respond payload := by
    rintro resp' ⟨record', cert', d, payload, hrecord', hcert', hpaths, hrest⟩
    obtain rfl := Option.some.inj (hrecord'.symm.trans hrecord)
    obtain rfl := Option.some.inj (hcert'.symm.trans hcert)
    exact ⟨hpaths, d, payload, hrest⟩
  unfold serveArtifact
  by_cases hpaths : cert.certPath = [] ∨ cert.keyPath = []
  · rw [if_pos hpaths]
    apply ends_error hstate (by decide)
    intro _ resp' hresp
    obtain ⟨⟨hcertPath, hkeyPath⟩, -⟩ := hrows resp' hresp
    exact hpaths.elim hcertPath hkeyPath
  rw [if_neg hpaths]
  rw [not_or] at hpaths
  cases hd : download (certificateFileBase record) cert artifact with
  | none =>
      apply ends_error hstate (by decide)
      intro _ resp' hresp
      obtain ⟨-, d, payload, hd', -⟩ := hrows resp' hresp
      rw [hd] at hd'
      cases hd'
  | some d =>
      rw [Prog.wp_bind, Prog.wp_attempt]
      refine Prog.wp_mono (d.source.read_reads.wp o t) ?_
      rintro (e | payload) u ⟨hleft, hsound, hcomplete⟩
      · apply ends_error (hleft.trans hstate) (by decide)
        intro ho resp' hresp
        obtain ⟨-, d', payload, hd', hpayload, -⟩ := hrows resp' hresp
        obtain rfl := Option.some.inj (hd'.symm.trans hd)
        have hread := hcomplete ho payload (by rw [hstate]; exact hpayload)
        cases hread
      · have hpayload := hsound payload rfl
        rw [hstate] at hpayload
        refine ⟨hleft.trans hstate, _, rfl, fun _ => ?_, fun _ resp' hresp => ?_⟩
        · exact ⟨record, cert, d, payload, hrecord, hcert, hpaths, hd, hpayload,
            rfl⟩
        · obtain ⟨-, d', payload', hd', hpayload', rfl⟩ := hrows resp' hresp
          obtain rfl := Option.some.inj (hd'.symm.trans hd)
          obtain rfl := Option.some.inj (hpayload'.symm.trans hpayload)
          rfl

variable (lib) in
theorem serveRecord_ends (recordID : Int) (artifact : GoString)
    (o : Oracle Call) (s : Sys World) :
    (serveRecord lib recordID artifact).wp o s
      (Ends lib recordID artifact o s) := by
  unfold serveRecord
  rw [Prog.wp_bind, Prog.wp_attempt]
  refine Prog.wp_mono ((downloadRows_reads recordID).wp o s) ?_
  rintro (e | ⟨record, cert⟩) t ⟨hstate, hsound, hcomplete⟩
  · -- without the rows there is nothing to deliver
    have hnone : o = .quiet →
        ∀ resp', ¬Delivers lib s.state recordID artifact resp' := by
      rintro ho resp' ⟨record, cert, d, payload, hrecord, hcert, -⟩
      have hread := hcomplete ho (record, cert) (by simp [hrecord, hcert])
      cases hread
    cases e with
    | noRows => exact ends_error hstate (by decide) hnone
    | external text => exact ends_error hstate (by decide) hnone
    | newError message => exact ends_error hstate (by decide) hnone
    | addError err cause => exact ends_error hstate (by decide) hnone
    | wrap err => exact ends_error hstate (by decide) hnone
  · obtain ⟨record', hrecord, hrest⟩ :=
      Option.bind_eq_some_iff.mp (hsound (record, cert) rfl)
    obtain ⟨cert', hcert, hpair⟩ := Option.bind_eq_some_iff.mp hrest
    obtain ⟨rfl, rfl⟩ := Prod.mk.inj (Option.some.inj hpair)
    exact serveArtifact_ends hstate hrecord hcert

end Handler

/-- **The archive** is the one of `downloadPKCS12`: the same statements are
carried out, and the answer is what it returns or the text of its error. -/
theorem serveRecord_pkcs12 (lib : Library) (recordID : Int) (o : Oracle Call)
    (s : Sys World) :
    (serveRecord lib recordID (lit "pkcs12") o s).2 =
        (downloadPKCS12 lib.encode recordID o s).2 ∧
      ∃ resp, (serveRecord lib recordID (lit "pkcs12") o s).1 = .ok resp ∧
        match (downloadPKCS12 lib.encode recordID o s).1 with
        | .ok payload => resp.status = 200 ∧ resp.body = payload
        | .error err => ∃ code text, resp = httpError text code ∧
            err = .newError text := by
  have hpure : ∀ {α : Type} (a : α) (t : Sys World),
      (pure a : Handler α) o t = (.ok a, t) := fun _ _ => rfl
  have hthrow : ∀ {α : Type} (e : GoError) (t : Sys World),
      (Prog.throw e : Handler α) o t = (.error e, t) := fun _ _ => rfl
  simp only [serveRecord, downloadRows, downloadPKCS12, downloadRow,
    Prog.bind_apply, Prog.attempt, Prog.mapError]
  cases hrecord : getRecord recordID o s with
  | mk r t =>
      cases r with
      | error e => cases e <;> exact ⟨rfl, _, rfl, _, _, rfl, rfl⟩
      | ok record =>
          cases hcert : getCertificateByRecord recordID o t with
          | mk r u =>
              cases r with
              | error e =>
                  simp only [hcert]
                  cases e <;> exact ⟨rfl, _, rfl, _, _, rfl, rfl⟩
              | ok cert =>
                  simp only [hcert, hpure, Except.mapError, serveArtifact]
                  by_cases hpaths : cert.certPath = [] ∨ cert.keyPath = []
                  · simp only [if_pos hpaths, hpure, hthrow]
                    exact ⟨trivial, _, rfl, _, _, rfl, rfl⟩
                  · simp only [if_neg hpaths, hpure]
                    have hd : download (certificateFileBase record) cert
                        (lit "pkcs12") = some ⟨certificateFileBase record ++
                          lit ".p12", "application/x-pkcs12",
                          .archive cert.certPath cert.keyPath⟩ := rfl
                    simp only [hd, Source.read, Prog.bind_apply, Prog.attempt]
                    cases buildPKCS12Archive lib.encode cert.certPath
                      cert.keyPath o u with
                    | mk r v =>
                        cases r with
                        | error e => exact ⟨rfl, _, rfl, _, _, rfl, rfl⟩
                        | ok payload => exact ⟨rfl, _, rfl, rfl, rfl⟩

/-! ## The details of a record -/

theorem detailedCertificate_spec (recordID : Int) (o : Oracle Call)
    (s : Sys World) :
    (detailedCertificate recordID).wpOk o s fun cert t =>
      t.state = s.state ∧ cert = certificateOf s.state recordID := by
  apply Prog.wpOk_of_wp
  unfold detailedCertificate
  rw [Prog.wp_bind, Prog.wp_attempt]
  apply Prog.wp_query_of
  · simp only [certificateOf]
    cases s.state.certificates.rows.find? fun c => c.recordID == recordID with
    | none =>
        intro cert hcert
        exact ⟨rfl, (Except.ok.inj hcert).symm⟩
    | some c =>
        intro cert hcert
        exact ⟨rfl, (Except.ok.inj hcert).symm⟩
  · intro cert hcert
    cases hcert

theorem detailRows_spec (recordID : Int) (o : Oracle Call) (s : Sys World) :
    (detailRows recordID).wpOk o s fun rows t =>
      t.state = s.state ∧ s.state.records.find? recordID = some rows.record ∧
        rows.cert = certificateOf s.state recordID := by
  unfold detailRows
  apply Prog.wpOk_bind
  apply Prog.wpOk_query
  intro record hrecord
  have hfound : s.state.records.find? recordID = some record := by
    cases hfind : s.state.records.find? recordID with
    | none =>
        rw [hfind] at hrecord
        cases hrecord
    | some r =>
        rw [hfind] at hrecord
        exact congrArg some (Except.ok.inj hrecord)
  apply Prog.wpOk_bind
  refine Prog.wpOk_mono (detailedCertificate_spec recordID o _) ?_
  rintro cert t ⟨ht, rfl⟩
  apply Prog.wpOk_bind
  apply Prog.wpOk_query
  intro jobs _
  apply Prog.wpOk_bind
  apply Prog.wpOk_query
  intro runs _
  apply Prog.wpOk_bind
  apply Prog.wpOk_query
  intro tasks _
  exact Prog.wpOk_pure ⟨ht, hfound, rfl⟩

/-- **What the details list** is what the rows and the files say. -/
theorem getCertificateDetails_lists (env : Env) (recordID : Int)
    (o : Oracle Call) (s : Sys World) :
    (getCertificateDetails env recordID).wpOk o s fun details t =>
      t.state = s.state ∧
        details.artifacts = buildProtoArtifacts s.state recordID
          (certificateOf s.state recordID) ∧
        ∃ record, s.state.records.find? recordID = some record := by
  unfold getCertificateDetails
  by_cases hid : recordID = 0
  · rw [if_pos hid]
    exact Prog.wpOk_throw _
  rw [if_neg hid]
  apply Prog.wpOk_bind
  apply Prog.wpOk_mapError
  refine Prog.wpOk_mono (detailRows_spec recordID o s) ?_
  rintro rows t ⟨ht, hrecord, hcert⟩
  intro details u hrun
  obtain ⟨hdetails, rfl⟩ := Prod.mk.inj hrun
  obtain rfl := Except.ok.inj hdetails
  refine ⟨ht, ?_, rows.record, hrecord⟩
  have hkey : rows.record.id = recordID := Table.find?_key hrecord
  simp only [certificateDetails, hkey, hcert, ht]

/-! ## The main results -/

/-- What was read for the archive of the record can be encoded. -/
def Encodes (lib : Library) (w : World) (recordID : Int) : Prop :=
  ∀ cert fullchain privKey, certificateOf w recordID = some cert →
    w.files cert.certPath = some fullchain →
    w.files cert.keyPath = some privKey →
    ∃ payload, lib.encode fullchain privKey = .ok payload

/-- The record and the artifact that the handler reads off a request. -/
structure AsksFor (lib : Library) (r : Request) (recordID : Int)
    (artifact : GoString) : Prop where
  record : parseRecordID r = .ok recordID
  artifact : lib.toLower (get r.url.query "artifact").trimSpace = artifact

/-- **A link is read back** to the record and the artifact it was made of. -/
theorem asksFor_link {lib : Library} (hlib : lib.Lawful) {recordId : Int}
    (hpos : 0 < recordId) (hlt : recordId < 2 ^ 63) {artifact : GoString}
    (hartifact : artifact ∈ artifactKeys.map (·.1)) {u : Url}
    (hquery : u.query = parameters recordId artifact) :
    AsksFor lib ⟨"GET", u⟩ recordId artifact where
  record := parseRecordID_link hpos hlt hquery
  artifact := by
    have hkeys : ∀ k ∈ artifactKeys.map (·.1), (∀ b ∈ k, b < 0x80) ∧
        GoString.trimSpace k = k ∧ GoUrl.toLower k = k := by
      decide +kernel
    obtain ⟨hascii, htrim, hlower⟩ := hkeys artifact hartifact
    have hget : (get u.query "artifact").trimSpace = artifact := by
      rw [hquery]
      exact htrim
    show lib.toLower (get u.query "artifact").trimSpace = artifact
    rw [hget, hlib artifact hascii, hlower]

/-- The handler on a link is the handler behind the checks. -/
theorem handler_of_asksFor {lib : Library} {recordId : Int}
    {artifact : GoString} (hartifact : artifact ∈ artifactKeys.map (·.1))
    {u : Url} (h : AsksFor lib ⟨"GET", u⟩ recordId artifact) :
    certificateDownloadHandler lib ⟨"GET", u⟩ =
      serveRecord lib recordId artifact := by
  have hnonempty : ∀ k ∈ artifactKeys.map (·.1), k ≠ [] := by decide
  unfold certificateDownloadHandler
  rw [if_neg (by simp), h.record]
  simp only [h.artifact, if_neg (hnonempty artifact hartifact)]

theorem Delivers.encodes {lib : Library} {w : World} {recordID : Int}
    {resp : Response} (h : Delivers lib w recordID (lit "pkcs12") resp) :
    Encodes lib w recordID := by
  obtain ⟨record, cert, d, payload, -, hcert, -, hd, hpayload, -⟩ := h
  have hsource : d.source = .archive cert.certPath cert.keyPath := by
    cases Option.some.inj hd
    rfl
  intro cert' fullchain privKey hcert' hfullchain hkey
  obtain rfl := Option.some.inj (hcert'.symm.trans hcert)
  simp only [hsource, Source.content, hfullchain, hkey, Option.bind_eq_bind,
    Option.bind_some] at hpayload
  cases hencode : lib.encode fullchain privKey with
  | error err =>
      rw [hencode] at hpayload
      cases hpayload
  | ok archive => exact ⟨archive, rfl⟩

/-- What is listed as available can be delivered. -/
theorem delivers_of_listed {lib : Library} {w : World} {recordID : Int}
    {artifact : GoString} {record : Record}
    (hrecord : w.records.find? recordID = some record)
    (hlisted : Listed w recordID artifact)
    (hencodes : artifact = lit "pkcs12" → Encodes lib w recordID) :
    ∃ resp, resp.status = 200 ∧ Delivers lib w recordID artifact resp := by
  obtain ⟨a, ha, rfl, havailable⟩ := hlisted
  obtain ⟨k, hk, rfl⟩ := List.mem_map.mp ha
  simp only [Option.any_eq_true, Option.filter_eq_some_iff, decide_eq_true_eq]
    at havailable
  obtain ⟨cert, ⟨hcert, hpaths⟩, hfiles⟩ := havailable
  obtain ⟨d, hd, hpresent⟩ := download_listed w (certificateFileBase record)
    cert hk
  rw [hpresent] at hfiles
  -- an archive is encoded from the files of the certificate
  have hcontent : ∃ payload, d.source.content lib w = some payload := by
    cases hsource : d.source with
    | file path =>
        rw [hsource] at hfiles
        exact Option.isSome_iff_exists.mp hfiles
    | archive fullchainPath keyPath =>
        obtain ⟨hartifact, rfl, rfl⟩ := download_archive hd hsource
        rw [hsource] at hfiles
        simp only [Source.present, fileExists, Bool.and_eq_true,
          Option.isSome_iff_exists] at hfiles
        obtain ⟨⟨fullchain, hfullchain⟩, privKey, hkey⟩ := hfiles
        obtain ⟨payload, hpayload⟩ := hencodes hartifact cert fullchain privKey
          hcert hfullchain hkey
        refine ⟨payload, ?_⟩
        simp only [Source.content, hfullchain, hkey, Option.bind_eq_bind,
          Option.bind_some, hpayload]
        rfl
  obtain ⟨payload, hpayload⟩ := hcontent
  exact ⟨d.respond payload, rfl, record, cert, d, payload, hrecord, hcert, hpaths,
    hd, hpayload, rfl⟩

/-- **The links are served.**  What the details of a record list has a link that
is read back to the record and the artifact; while the world is as it was listed
and no call goes wrong, the answer is the artifact if it is available and, for
the archive, what was read can be encoded, and an error otherwise. -/
theorem links_are_served (lib : Library) (hlib : lib.Lawful) (env : Env)
    (recordID : Int) (hpos : 0 < recordID) (hlt : recordID < 2 ^ 63)
    (o : Oracle Call) (s t : Sys World) (details : CertificateDetails)
    (hdetails : getCertificateDetails env recordID o s = (.ok details, t))
    (a : CertificateArtifact) (ha : a ∈ details.artifacts) :
    a.downloadUrl = getCertificateDownloadUrl recordID a.key ∧
    ∃ u resp, parseRequestURI a.downloadUrl = .ok u ∧
      AsksFor lib ⟨"GET", u⟩ recordID a.key ∧
      (certificateDownloadHandler lib ⟨"GET", u⟩ .quiet t).1 = .ok resp ∧
      (resp.status = 200 ↔ a.available = true ∧
        (a.key = lit "pkcs12" → Encodes lib t.state recordID)) ∧
      (resp.status = 200 → Delivers lib t.state recordID a.key resp) := by
  obtain ⟨hstate, hartifacts, record, hrecord⟩ :=
    getCertificateDetails_lists env recordID o s details t hdetails
  rw [hartifacts] at ha
  rw [← hstate] at ha hrecord
  obtain ⟨hlisted, hlink⟩ := downloadUrl_listed ha
  refine ⟨hlink, ?_⟩
  obtain ⟨u, hparse, hquery⟩ :=
    parseRequestURI_link (Int.le_of_lt hpos) a.key
  obtain ⟨-, resp, hresp, hsound, hcomplete⟩ :=
    serveRecord_ends lib recordID a.key .quiet t
  have hasks := asksFor_link hlib hpos hlt hlisted hquery
  refine ⟨u, resp, hlink ▸ hparse, hasks, ?_, ⟨?_, ?_⟩, hsound⟩
  · rw [handler_of_asksFor hlisted hasks]
    exact hresp
  · intro hok
    have hdelivers := hsound hok
    obtain ⟨a', ha', hkey, havailable⟩ := hdelivers.listed
    rw [listed_once ha ha' hkey.symm]
    refine ⟨havailable, fun hpkcs12 => ?_⟩
    rw [← hkey, hpkcs12] at hdelivers
    exact hdelivers.encodes
  · rintro ⟨havailable, hencodes⟩
    obtain ⟨resp', hok, hdelivers⟩ :=
      delivers_of_listed hrecord ⟨a, ha, rfl, havailable⟩ hencodes
    rw [hcomplete rfl resp' hdelivers]
    exact hok

/-- A record whose files hold no PEM block, so that nothing is encoded. -/
private def shelf : World :=
  { World.init fun _ _ => none with
    records := Table.empty.insert fun id =>
      ⟨id, "token", 7, "example.org", "*", 60, none, purposeCert, false, none⟩
    certificates := Table.empty.insert fun id =>
      ⟨id, 1, "*.example.org", "valid", none, none, none, none,
        "certs/fullchain.pem", "certs/privkey.pem"⟩
    files := fun path =>
      if path = lit "certs/fullchain.pem" then some "chain"
      else if path = lit "certs/privkey.pem" then some "key"
      else none }

private def plainText : Library where
  toLower := GoUrl.toLower
  encode _ _ := .error (.external "invalid argument")

/-- The chain is downloaded by its link; the archive was listed as well, and is
refused. -/
theorem links_are_served_shelf :
    ∃ details, (getCertificateDetails Env.sample 1 .quiet ⟨shelf, 0⟩).1 =
        .ok details ∧
      details.artifacts.map (·.available) =
        [false, false, true, true, true] ∧
      ∀ a ∈ details.artifacts, ∃ u resp,
        parseRequestURI a.downloadUrl = .ok u ∧
        AsksFor plainText ⟨"GET", u⟩ 1 a.key ∧
        (certificateDownloadHandler plainText ⟨"GET", u⟩ .quiet
          ⟨shelf, 5⟩).1 = .ok resp ∧
        (resp.status = 200 ↔ a.key = lit "fullchain" ∨ a.key = lit "privkey") :=
  by
  have hkeys : ∀ a ∈ buildProtoArtifacts shelf 1 (certificateOf shelf 1),
      (a.available = true ∧ a.key ≠ lit "pkcs12") ↔
        (a.key = lit "fullchain" ∨ a.key = lit "privkey") := by
    decide +kernel
  refine ⟨_, rfl, by decide +kernel, fun a ha => ?_⟩
  obtain ⟨-, u, resp, hparse, hasks, hresp, hstatus, -⟩ :=
    links_are_served plainText (fun _ _ => rfl) Env.sample 1 (by decide)
      (by decide) .quiet ⟨shelf, 0⟩ ⟨shelf, 5⟩ _ rfl a ha
  refine ⟨u, resp, hparse, hasks, hresp, hstatus.trans ?_⟩
  have hnot : ¬Encodes plainText shelf 1 := by
    intro h
    obtain ⟨payload, hpayload⟩ := h _ _ _ rfl rfl rfl
    cases hpayload
  simp only [hnot, imp_false]
  exact hkeys a ha

/-- **Only what is listed is served.**  Whatever the request is and whatever
goes wrong, the world is left alone, and an answer that is no error is an
artifact of the record that the request names; all details of that record list
it as available. -/
theorem only_listed_is_served (lib : Library) (r : Request) (o : Oracle Call)
    (s : Sys World) :
    ∃ resp t, certificateDownloadHandler lib r o s = (.ok resp, t) ∧
      t.state = s.state ∧
      (resp.status = 200 → r.method = lit "GET" ∧
        ∃ recordID artifact, parseRecordID r = .ok recordID ∧
          Delivers lib s.state recordID artifact resp ∧
          ∀ env o' details t',
            getCertificateDetails env recordID o' s = (.ok details, t') →
            ∃ a ∈ details.artifacts, a.key = artifact ∧ a.available = true) := by
  unfold certificateDownloadHandler
  by_cases hmethod : r.method = lit "GET"
  · rw [if_neg (not_not_intro hmethod)]
    cases hrecord : parseRecordID r with
    | error response =>
        refine ⟨response, s, rfl, rfl, fun h => ?_⟩
        exact absurd h (parseRecordID_refuses hrecord)
    | ok recordID =>
        by_cases hempty :
            lib.toLower (get r.url.query "artifact").trimSpace = []
        · simp only [if_pos hempty]
          exact ⟨_, s, rfl, rfl, fun h => by cases h⟩
        · simp only [if_neg hempty]
          obtain ⟨hstate, resp, hresp, hsound, -⟩ :=
            serveRecord_ends lib recordID
              (lib.toLower (get r.url.query "artifact").trimSpace) o s
          refine ⟨resp, _, Prod.ext hresp rfl, hstate, fun hok => ?_⟩
          refine ⟨hmethod, recordID, _, rfl, hsound hok, ?_⟩
          intro env o' details t' hdetails
          obtain ⟨-, hartifacts, -⟩ :=
            getCertificateDetails_lists env recordID o' s details t' hdetails
          rw [hartifacts]
          exact (hsound hok).listed
  · rw [if_pos hmethod]
    exact ⟨_, s, rfl, rfl, fun h => by cases h⟩

end Hdns.Ports.CertificateDownloads

import Hdns.Ports.CertificateDelivery
import Hdns.Ports.FortiOSArchive
import Hdns.Ports.FortiOSEndpoint
import Hdns.Verified.JsonNumber
import Hdns.Verified.MimeHeader

/-!
# Requests to a FortiGate

A FortiGate reports an error in the body of an answer whose status code is that
of a success.  `doFortiOSRequest` looks for it only where the body can be
decoded into `fortiOSAPIResponse`, and decoding fails as a whole when one member
has a value that its field does not take.

## Main results

* `doFortiOSRequest_spec` — a request is not sent, fails, or is answered by an
  answer that is accepted.
* `bad_answer_reported_iff` — the answers with an error in their body that every
  action reports.
-/

namespace Hdns.Ports.FortiOS

open Hdns.Verified
open Hdns.Verified.GoString
open Hdns.Verified.GoUrl
open Hdns.Verified.GoIP (colon)
open Hdns.Verified.MimeHeader (IsToken)
open Hdns.Ports.Webhook (Payload)
open Hdns.Ports.TaskConfigs
open Hdns.Ports.CertificateDelivery (foldName)
open Hdns.Ports.FortiOSArchive
open Hdns.Ports.FortiOSEndpoint

/-! ## The network -/

/-- `http.Request`, as far as it is filled in here. -/
structure Request where
  method : GoString
  url : Url
  header : List (GoString × GoString)
  body : Option GoString
  deriving DecidableEq, Repr

/-- `http.Response`. -/
structure Response where
  statusCode : Nat
  body : GoString
  deriving DecidableEq, Repr

structure Exchange where
  request : Request
  response : Response
  deriving DecidableEq, Repr

/-- The FortiGates: what they have been asked, the latest exchange first, and
how they answer the next request. -/
structure Net where
  answer : List Exchange → Request → Response
  exchanges : List Exchange

inductive NetCall where
  | request | readBody
  deriving DecidableEq, Repr

/-- The errors of `doFortiOSRequest`. -/
inductive RequestError where
  /-- An error of `fortiOSEndpoint`. -/
  | endpoint (err : EndpointError)
  /-- `build request: net/http: invalid method %q`. -/
  | invalidMethod (method : GoString)
  /-- `build request: %w`, of a text that is no URL. -/
  | invalidURL (err : GoEscape.Error)
  /-- `request failed: net/http: invalid header field value for %q`. -/
  | invalidHeader (name : GoString)
  /-- `request failed: http: no Host in request URL`. -/
  | noHost
  /-- `request failed: dial tcp: address %s: invalid port`. -/
  | invalidPort (port : GoString)
  /-- `request failed: %w`, whatever else has gone wrong. -/
  | requestFailed
  /-- `read response: %w`. -/
  | readResponse
  /-- `HTTP %d: %s`. -/
  | httpStatus (statusCode : Nat) (text : GoString)
  /-- `API status %q: %s`. -/
  | apiStatus (status text : GoString)
  /-- `API http_status=%d: %s`. -/
  | apiHTTPStatus (httpStatus : Int) (text : GoString)
  deriving DecidableEq, Repr

/-- The errors of the three actions. -/
inductive FortiOSError where
  /-- `%s: fortios config is not set`. -/
  | notSet (type : GoString)
  /-- An error of `payloadPKCS12Base64`. -/
  | payload (text : GoString)
  /-- `fortios_upload: %w`. -/
  | upload (err : RequestError)
  /-- `fortios_profile_cert_replace: update[%d] path=%q field=%q: %w`. -/
  | update (i : Nat) (path field : GoString) (err : RequestError)
  /-- `fortios_admin_server_cert_update: %w`. -/
  | adminUpdate (err : RequestError)
  /-- `fortios dry_run verify failed: %w`. -/
  | dryRun (err : RequestError)
  deriving DecidableEq, Repr

/-! ## Sending a request -/

/-- `removeEmptyPort` of `net/http`: a colon at the end has no bracket behind
it. -/
def removeEmptyPort (host : GoString) : GoString := host.trimSuffix [colon]

/-- `http.NewRequestWithContext`. -/
def newRequest (method endpoint : GoString) (body : Option GoString) :
    Except RequestError Request :=
  let method := if method = [] then lit "GET" else method
  if ¬IsToken method then .error (.invalidMethod method)
  else do
    let u ← (parse endpoint).mapError .invalidURL
    pure ⟨method, { u with host := removeEmptyPort u.host }, [], body⟩

/-- `req.Header`, once `doFortiOSRequest` has filled it in. -/
def requestHeader (accessToken : GoString) (body : Option GoString) :
    List (GoString × GoString) :=
  [(lit "Accept", lit "application/json")] ++
  (if body ≠ none then [(lit "Content-Type", lit "application/json")] else []) ++
  [(lit "Authorization", lit "Bearer " ++ accessToken)]

/-- `httpguts.ValidHeaderFieldValue`: no control byte but the tab. -/
def validHeaderFieldValue (s : GoString) : Bool :=
  s.all fun b => !isControl b || b = 0x09

/-- The largest port an address can have. -/
def maxPort : Nat := 65535

/-- What a client checks before it contacts anybody: the transport the header and
the host, and the dialer the port. -/
def checkRequest (req : Request) : Except RequestError Unit :=
  match req.header.find? fun field => !validHeaderFieldValue field.2 with
  | some field => .error (.invalidHeader field.1)
  | none => do
      let port := port req.url.host
      refuseIf (req.url.host = []) .noHost
      refuseIf (maxPort < Json.natOf port) (.invalidPort port)

/-- `Do` of `http.Client`. -/
def send (req : Request) : Prog NetCall Net RequestError Response := do
  Prog.ofExcept (checkRequest req)
  .call .request .requestFailed fun net =>
    let resp := net.answer net.exchanges req
    (.ok resp, { net with exchanges := ⟨req, resp⟩ :: net.exchanges })

/-! ## The answer -/

/-- The limit of the reader. -/
def maxResponse : Nat := 1024 * 1024

structure FortiOSAPIResponse where
  status : GoString
  httpStatus : Int
  error : GoString
  message : GoString
  deriving DecidableEq, Repr

def FortiOSAPIResponse.zero : FortiOSAPIResponse := ⟨[], 0, [], []⟩

/-- The fields of `fortiOSAPIResponse`. -/
inductive ResponseField where
  | status | httpStatus | error | message
  deriving DecidableEq, Repr

/-- The `json` tag of a field. -/
def ResponseField.tag : ResponseField → GoString
  | status => "status"
  | httpStatus => "http_status"
  | error => "error"
  | message => "message"

/-- The fields in the order they are declared. -/
def responseFields : List ResponseField :=
  [.status, .httpStatus, .error, .message]

/-- The field a member is stored in: the one with its name, else the first
whose name differs in case only. -/
def responseField (name : GoString) : Option ResponseField :=
  (responseFields.find? fun f => f.tag = name).or
    (responseFields.find? fun f => foldName f.tag = foldName name)

/-- Store a value in a field: `null` changes nothing, and there is no result
for an `UnmarshalTypeError`. -/
def ResponseField.store (r : FortiOSAPIResponse) :
    ResponseField → Json.Value GoString → Option FortiOSAPIResponse
  | _, .null => some r
  | status, .string s => some { r with status := s }
  | httpStatus, .number text =>
      (Json.parseInt text).map fun n => { r with httpStatus := n }
  | error, .string s => some { r with error := s }
  | message, .string s => some { r with message := s }
  | _, _ => none

/-- Store one member; unknown ones are ignored. -/
def storeMember (r : FortiOSAPIResponse)
    (member : GoString × Json.Value GoString) : Option FortiOSAPIResponse :=
  match responseField member.1 with
  | none => some r
  | some f => f.store r member.2

/-- `json.Unmarshal` into `fortiOSAPIResponse`, where it returns no error. -/
def unmarshalResponse (s : GoString) : Option FortiOSAPIResponse :=
  match Json.decode s with
  | some .null => some .zero
  | some (.object members) => members.foldlM storeMember .zero
  | _ => none

/-- `truncateText`. -/
def truncateText (s : GoString) (max : Nat) : GoString :=
  if s.length ≤ max then s else s.take max ++ lit "..."

/-- What `doFortiOSRequest` makes of a decoded answer. -/
def checkAPIResponse (r : FortiOSAPIResponse) (text : GoString) :
    Except RequestError Unit := do
  refuseIf (r.status ≠ [] ∧ r.status ≠ lit "success") (.apiStatus r.status text)
  refuseIf (r.httpStatus ≠ 0 ∧ r.httpStatus ≠ 200)
    (.apiHTTPStatus r.httpStatus text)

/-- What `doFortiOSRequest` makes of an answer it has read. -/
def checkResponse (statusCode : Nat) (bytes : GoString) :
    Except RequestError Unit :=
  let text := truncateText bytes 400
  if statusCode < 200 ∨ 300 ≤ statusCode then
    .error (.httpStatus statusCode text)
  else if 0 < bytes.length then
    match unmarshalResponse bytes with
    | some r => checkAPIResponse r text
    | none => .ok ()
  else .ok ()

/-- `doFortiOSRequest`; the body is what `json.Marshal` has made of it, which
does not fail on texts. -/
def doFortiOSRequest (cfg : FortiOSConfig) (method apiPath : GoString)
    (body : Option GoString) : Prog NetCall Net RequestError GoString := do
  let endpoint ← Prog.ofExcept ((fortiOSEndpoint cfg apiPath).mapError .endpoint)
  let req ← Prog.ofExcept (newRequest method endpoint body)
  let resp ← send { req with header := requestHeader cfg.accessToken body }
  let respBytes ← .query .readBody .readResponse fun _ =>
    .ok (resp.body.take maxResponse)
  Prog.ofExcept (checkResponse resp.statusCode respBytes)
  pure respBytes

/-! ## The actions -/

/-- `json.Marshal` of an object whose values are texts. -/
def marshalObject (members : List (GoString × GoString)) : GoString :=
  lit "\x7b" ++
    GoString.join (members.map fun m => Json.quote m.1 ++ lit ":" ++
      Json.quote m.2) "," ++
    lit "\x7d"

/-- `json.Marshal` of a `fortiOSUploadRequest`. -/
def uploadRequest (cfg : FortiOSConfig) (fileContent : GoString) : GoString :=
  marshalObject ([(lit "type", lit "pkcs12"), (lit "certname", cfg.certName)] ++
    (if cfg.scope ≠ [] then [(lit "scope", cfg.scope)] else []) ++
    [(lit "file_content", fileContent)])

/-- A FortiOS action. -/
abbrev Action := Prog NetCall Net FortiOSError Unit

/-- `verifyFortiOSConnection`. -/
def verifyFortiOSConnection (cfg : FortiOSConfig) : Action := do
  let _ ← (doFortiOSRequest cfg "GET" "/api/v2/cmdb/system/global" none).wrapError
    .dryRun
  pure ()

/-- `uploadFortiOS`. -/
def uploadFortiOS (action : ActionConfig) (payload : Payload) : Action :=
  match action.fortiOS with
  | none => .throw (.notSet actionFortiOSUpload)
  | some cfg =>
      if cfg.dryRun then verifyFortiOSConnection cfg
      else do
        let encoded ← Prog.ofExcept
          ((payloadPKCS12Base64 payload).mapError .payload)
        let _ ← (doFortiOSRequest cfg "POST"
          "/api/v2/monitor/vpn-certificate/local/import"
          (uploadRequest cfg encoded)).wrapError .upload
        pure ()

/-- The body of the loop over `action.ProfileUpdates`. -/
def replaceUpdate (cfg : FortiOSConfig) (i : Nat) (update : FortiOSProfileUpdate) :
    Action := do
  let cmdbPath := buildFortiOSCMDBPath update.path update.mkey
  let body := marshalObject [(update.field, cfg.certName)]
  let _ ← (doFortiOSRequest cfg update.method cmdbPath body).wrapError
    (.update i cmdbPath update.field)
  pure ()

/-- `replaceFortiOSProfileCert`. -/
def replaceFortiOSProfileCert (action : ActionConfig) : Action :=
  match action.fortiOS with
  | none => .throw (.notSet actionFortiOSProfileCertReplace)
  | some cfg =>
      if cfg.dryRun then verifyFortiOSConnection cfg
      else action.profileUpdates.zipIdx.forM fun x => replaceUpdate cfg x.2 x.1

/-- `updateFortiOSAdminServerCert`. -/
def updateFortiOSAdminServerCert (action : ActionConfig) : Action :=
  match action.fortiOS with
  | none => .throw (.notSet actionFortiOSAdminServerCertUpdate)
  | some cfg =>
      if cfg.dryRun then verifyFortiOSConnection cfg
      else do
        let body := marshalObject [(lit "admin-server-cert", cfg.certName)]
        let _ ← (doFortiOSRequest cfg "PUT" "/api/v2/cmdb/system/global"
          body).wrapError .adminUpdate
        pure ()

/-! ## Runs -/

/-- The answer is taken for a success. -/
def Accepted (a : Response) : Prop :=
  checkResponse a.statusCode (a.body.take maxResponse) = .ok ()

/-- The answers given on the way have been accepted. -/
def Accepts (net net' : Net) : Prop :=
  ∃ new, net'.exchanges = new ++ net.exchanges ∧
    ∀ e ∈ new, Accepted e.response

theorem Accepts.refl (net : Net) : Accepts net net :=
  ⟨[], rfl, fun _ he => absurd he List.not_mem_nil⟩

theorem Accepts.trans (a b c : Net) (h : Accepts a b) (h' : Accepts b c) :
    Accepts a c := by
  obtain ⟨new, hb, hnew⟩ := h
  obtain ⟨new', hc, hnew'⟩ := h'
  refine ⟨new' ++ new, by rw [hc, hb, List.append_assoc], fun e he => ?_⟩
  rcases List.mem_append.mp he with he | he
  · exact hnew' e he
  · exact hnew e he

/-- The exchange that a request leads to. -/
def Net.exchange (net : Net) (req : Request) : Exchange :=
  ⟨req, net.answer net.exchanges req⟩

/-- The network behind a request. -/
def Net.asked (net : Net) (req : Request) : Net :=
  { net with exchanges := net.exchange req :: net.exchanges }

/-- How a request ends. -/
inductive Ended (net : Net) (r : Except RequestError GoString) (net' : Net) :
    Prop
  | notSent (err : RequestError) (result : r = .error err) (same : net' = net)
  | failed (req : Request) (err : RequestError) (result : r = .error err)
      (asked : net' = net.asked req)
  | accepted (req : Request) (result : ∃ bytes, r = .ok bytes)
      (accepted : Accepted (net.exchange req).response)
      (asked : net' = net.asked req)

/-- What `doFortiOSRequest` does before anything is sent. -/
def requestFor (cfg : FortiOSConfig) (method apiPath : GoString)
    (body : Option GoString) : Except RequestError Request := do
  let endpoint ← (fortiOSEndpoint cfg apiPath).mapError .endpoint
  let req ← newRequest method endpoint body
  let req := { req with header := requestHeader cfg.accessToken body }
  checkRequest req
  pure req

/-- What `doFortiOSRequest` does with a request that can be sent. -/
def ask (req : Request) : Prog NetCall Net RequestError GoString := do
  let resp ← Prog.call .request .requestFailed fun net =>
    (.ok (net.exchange req).response, net.asked req)
  let respBytes ← Prog.query .readBody .readResponse fun _ =>
    .ok (resp.body.take maxResponse)
  Prog.ofExcept (checkResponse resp.statusCode respBytes)
  pure respBytes

theorem doFortiOSRequest_eq (cfg : FortiOSConfig) (method apiPath : GoString)
    (body : Option GoString) :
    doFortiOSRequest cfg method apiPath body =
      Prog.ofExcept (requestFor cfg method apiPath body) >>= ask := by
  simp only [doFortiOSRequest, requestFor, send, Prog.ofExcept_bind,
    Prog.ofExcept_pure, bind_assoc, pure_bind]
  rfl

section Request

variable (req : Request) (o : Oracle NetCall) (s : Sys Net)

/-- **How a request ends** once it is sent, whatever goes wrong. -/
theorem ask_spec :
    (ask req).wp o s fun r t => Ended s.state r t.state := by
  have hread : ∀ bytes : GoString, ∀ t : Sys Net, t.state = s.state.asked req →
      bytes = (s.state.exchange req).response.body.take maxResponse →
      (Prog.ofExcept (checkResponse (s.state.exchange req).response.statusCode
        bytes) >>= fun _ => pure bytes : Prog NetCall Net RequestError
          GoString).wp o t fun r t => Ended s.state r t.state := by
    intro bytes t ht hbytes
    cases hcheck : checkResponse (s.state.exchange req).response.statusCode
        bytes with
    | error err => exact .failed req err rfl ht
    | ok u =>
        rw [hbytes] at hcheck
        exact .accepted req ⟨bytes, rfl⟩ hcheck ht
  refine (Prog.wp_bind _ _ _).mpr (Prog.wp_call_of ?_ (fun _ => ?_) fun _ => ?_)
  · refine (Prog.wp_bind _ _ _).mpr (Prog.wp_query_of ?_ ?_)
    · exact hread _ _ rfl rfl
    · exact .failed req _ rfl rfl
  · exact .notSent _ rfl rfl
  · exact .failed req _ rfl rfl

/-- A request that goes through and is answered with success. -/
theorem ask_quiet (req : Request) {s : Sys Net}
    (h : Accepted (s.state.exchange req).response) :
    (ask req).wp .quiet s fun r t =>
      (∃ bytes, r = .ok bytes) ∧ t.state = s.state.asked req := by
  unfold ask
  refine (Prog.wp_bind _ _ _).mpr ((Prog.wp_call_quiet _ _ _ _).mpr ?_)
  refine (Prog.wp_bind _ _ _).mpr ((Prog.wp_query_quiet _ _ _ _).mpr ?_)
  refine (Prog.wp_bind _ _ _).mpr ((Prog.wp_ofExcept _ _).mpr ?_)
  rw [show checkResponse (s.state.exchange req).response.statusCode
    ((s.state.exchange req).response.body.take maxResponse) = .ok () from h]
  exact ⟨⟨_, rfl⟩, rfl⟩

end Request

/-- **How `doFortiOSRequest` ends**, whatever goes wrong. -/
theorem doFortiOSRequest_spec (cfg : FortiOSConfig) (method apiPath : GoString)
    (body : Option GoString) (o : Oracle NetCall) (s : Sys Net) :
    (doFortiOSRequest cfg method apiPath body).wp o s fun r t =>
      Ended s.state r t.state := by
  rw [doFortiOSRequest_eq]
  refine (Prog.wp_bind _ _ _).mpr ((Prog.wp_ofExcept _ _).mpr ?_)
  cases requestFor cfg method apiPath body with
  | error err => exact .notSent err rfl rfl
  | ok req => exact ask_spec req o s

section Accepting

variable (o : Oracle NetCall)

/-- A request that succeeds has been answered with success. -/
theorem doFortiOSRequest_accepts (cfg : FortiOSConfig)
    (method apiPath : GoString) (body : Option GoString) :
    Prog.KeepsOk o Accepts (doFortiOSRequest cfg method apiPath body) := by
  intro s
  refine Prog.wpOk_of_wp (Prog.wp_mono
    (doFortiOSRequest_spec cfg method apiPath body o s) ?_)
  intro r t hended a hr
  cases hended with
  | notSent err result =>
      rw [result] at hr
      cases hr
  | failed req err result =>
      rw [result] at hr
      cases hr
  | accepted req _ haccepted asked =>
      refine ⟨[s.state.exchange req], by rw [asked]; rfl, fun e he => ?_⟩
      rw [List.mem_singleton.mp he]
      exact haccepted

/-- The same for a caller that wraps the error. -/
theorem wrapped_accepts (cfg : FortiOSConfig) (method apiPath : GoString)
    (body : Option GoString) (wrap : RequestError → FortiOSError) :
    Prog.KeepsOk o Accepts (do
      let _ ← (doFortiOSRequest cfg method apiPath body).wrapError wrap
      pure () : Action) :=
  .bind Accepts.trans
    (.wrapError (doFortiOSRequest_accepts o cfg method apiPath body) wrap)
    fun _ => .pure Accepts.refl ()

theorem verify_accepts (cfg : FortiOSConfig) :
    Prog.KeepsOk o Accepts (verifyFortiOSConnection cfg) :=
  wrapped_accepts o cfg _ _ _ .dryRun

theorem upload_accepts (action : ActionConfig) (payload : Payload) :
    Prog.KeepsOk o Accepts (uploadFortiOS action payload) := by
  unfold uploadFortiOS
  cases action.fortiOS with
  | none => exact .throw _
  | some cfg =>
      dsimp only
      split
      · exact verify_accepts o cfg
      · exact .bind Accepts.trans (.ofExcept Accepts.refl _)
          fun encoded => wrapped_accepts o cfg _ _ _ .upload

theorem replace_accepts (action : ActionConfig) :
    Prog.KeepsOk o Accepts (replaceFortiOSProfileCert action) := by
  unfold replaceFortiOSProfileCert
  cases action.fortiOS with
  | none => exact .throw _
  | some cfg =>
      dsimp only
      split
      · exact verify_accepts o cfg
      · exact .forM Accepts.refl Accepts.trans
          (fun x => wrapped_accepts o cfg _ _ _ _) _

theorem adminUpdate_accepts (action : ActionConfig) :
    Prog.KeepsOk o Accepts (updateFortiOSAdminServerCert action) := by
  unfold updateFortiOSAdminServerCert
  cases action.fortiOS with
  | none => exact .throw _
  | some cfg =>
      dsimp only
      split
      · exact verify_accepts o cfg
      · exact wrapped_accepts o cfg _ _ _ .adminUpdate

end Accepting

/-! ## What is read of an answer -/

/-- A field takes the value. -/
def ResponseField.Takes : ResponseField → Json.Value GoString → Prop
  | _, .null => True
  | status, .string _ => True
  | httpStatus, .number text => Json.parseInt text ≠ none
  | error, .string _ => True
  | message, .string _ => True
  | _, _ => False

/-- The value of a member is of the type of its field, if it has one. -/
def Fits (member : GoString × Json.Value GoString) : Prop :=
  ∀ f, responseField member.1 = some f → f.Takes member.2

def stringValue : Json.Value GoString → Option GoString
  | .string s => some s
  | _ => none

def intValue : Json.Value GoString → Option Int
  | .number text => Json.parseInt text
  | _ => none

/-- What a field is set to by an object, one after the other. -/
def settings {α : Type} (f : ResponseField)
    (value : Json.Value GoString → Option α)
    (members : List (GoString × Json.Value GoString)) : List α :=
  members.filterMap fun m =>
    if responseField m.1 = some f then value m.2 else none

def statuses (members : List (GoString × Json.Value GoString)) :
    List GoString := settings .status stringValue members

def httpStatuses (members : List (GoString × Json.Value GoString)) : List Int :=
  settings .httpStatus intValue members

theorem settings_append {α : Type} (f : ResponseField)
    (value : Json.Value GoString → Option α)
    (ms ms' : List (GoString × Json.Value GoString)) :
    settings f value (ms ++ ms') = settings f value ms ++ settings f value ms' :=
  List.filterMap_append

theorem store_isSome (r : FortiOSAPIResponse) (f : ResponseField)
    (v : Json.Value GoString) : (f.store r v).isSome = true ↔ f.Takes v := by
  cases f <;> cases v <;>
    simp [ResponseField.store, ResponseField.Takes, Option.isSome_iff_ne_none]

theorem storeMember_isSome (r : FortiOSAPIResponse)
    (m : GoString × Json.Value GoString) :
    (storeMember r m).isSome = true ↔ Fits m := by
  unfold storeMember Fits
  cases responseField m.1 with
  | none => simp
  | some f => simp [store_isSome]

theorem settings_singleton {α : Type} (f : ResponseField)
    (value : Json.Value GoString → Option α)
    (m : GoString × Json.Value GoString) :
    (settings f value [m]).getLast? =
      if responseField m.1 = some f then value m.2 else none := by
  unfold settings
  rw [List.filterMap_cons]
  split
  · next hnone => exact hnone.symm
  · next x hsome => exact hsome.symm

theorem store_set {r r' : FortiOSAPIResponse} {f : ResponseField}
    {v : Json.Value GoString} (h : f.store r v = some r') :
    r'.status = (if f = .status then stringValue v else none).getD r.status ∧
      r'.httpStatus =
        (if f = .httpStatus then intValue v else none).getD r.httpStatus := by
  cases f <;> cases v <;>
    grind [ResponseField.store, stringValue, intValue, Option.map_eq_some_iff]

/-- What a member that is stored sets the two fields to. -/
theorem storeMember_set {r r' : FortiOSAPIResponse}
    {m : GoString × Json.Value GoString} (h : storeMember r m = some r') :
    r'.status = (statuses [m]).getLast?.getD r.status ∧
      r'.httpStatus = (httpStatuses [m]).getLast?.getD r.httpStatus := by
  rw [statuses, httpStatuses, settings_singleton, settings_singleton]
  unfold storeMember at h
  cases hfield : responseField m.1 with
  | none =>
      simp only [hfield] at h
      obtain rfl := Option.some.inj h
      exact ⟨rfl, rfl⟩
  | some f =>
      simp only [hfield] at h
      simpa using store_set h

/-- **What is read of an object** is what its members are set to last. -/
theorem foldlM_storeMember (members : List (GoString × Json.Value GoString)) :
    ∀ r : FortiOSAPIResponse,
      ((members.foldlM storeMember r).isSome = true ↔
        ∀ m ∈ members, Fits m) ∧
      ∀ r', members.foldlM storeMember r = some r' →
        r'.status = (statuses members).getLast?.getD r.status ∧
          r'.httpStatus = (httpStatuses members).getLast?.getD r.httpStatus := by
  induction members with
  | nil =>
      intro r
      refine ⟨by simp, fun r' h => ?_⟩
      obtain rfl := Option.some.inj h
      exact ⟨rfl, rfl⟩
  | cons m members ih =>
      intro r
      have hstatuses : statuses (m :: members) = statuses [m] ++ statuses members :=
        settings_append .status stringValue [m] members
      have hhttp : httpStatuses (m :: members) =
          httpStatuses [m] ++ httpStatuses members :=
        settings_append .httpStatus intValue [m] members
      rw [List.foldlM_cons, List.forall_mem_cons, ← storeMember_isSome r m]
      cases hstore : storeMember r m with
      | none => simp
      | some q =>
          obtain ⟨hsome, hset⟩ := ih q
          obtain ⟨hstatus, hhttpStatus⟩ := storeMember_set hstore
          refine ⟨by simpa using hsome, fun r' h => ?_⟩
          obtain ⟨hstatus', hhttpStatus'⟩ := hset r' h
          rw [hstatuses, hhttp, List.getLast?_append, List.getLast?_append,
            Option.getD_or, Option.getD_or, ← hstatus, ← hhttpStatus]
          exact ⟨hstatus', hhttpStatus'⟩

/-- The two fields speak of an error. -/
def Failure (status : GoString) (httpStatus : Int) : Prop :=
  status ≠ [] ∧ status ≠ lit "success" ∨ httpStatus ≠ 0 ∧ httpStatus ≠ 200

/-- What is read of the body is an object, all its members that have a field are
of the field's type, and the last of them speak of an error. -/
def Understood (body : GoString) : Prop :=
  ∃ members, Json.decode (body.take maxResponse) = some (.object members) ∧
    (∀ m ∈ members, Fits m) ∧
    Failure ((statuses members).getLast?.getD [])
      ((httpStatuses members).getLast?.getD 0)

theorem checkAPIResponse_eq_ok (r : FortiOSAPIResponse) (text : GoString) :
    checkAPIResponse r text = .ok () ↔ ¬Failure r.status r.httpStatus := by
  unfold checkAPIResponse Failure
  rw [refuseIf_bind_eq_ok, refuseIf_eq_ok, not_or]

/-- The error is found in an object that can be decoded. -/
theorem unmarshalResponse_object {bytes : GoString}
    {members : List (GoString × Json.Value GoString)}
    (h : Json.decode bytes = some (.object members)) (text : GoString) :
    (match unmarshalResponse bytes with
      | some r => checkAPIResponse r text
      | none => .ok ()) = .ok () ↔
      ¬((∀ m ∈ members, Fits m) ∧
        Failure ((statuses members).getLast?.getD [])
          ((httpStatuses members).getLast?.getD 0)) := by
  obtain ⟨hsome, hset⟩ := foldlM_storeMember members .zero
  have hunmarshal : unmarshalResponse bytes =
      members.foldlM storeMember .zero := by
    unfold unmarshalResponse
    rw [h]
  rw [hunmarshal, ← hsome]
  cases hr : members.foldlM storeMember FortiOSAPIResponse.zero with
  | none => simp
  | some r =>
      obtain ⟨hstatus, hhttpStatus⟩ := hset r hr
      rw [show FortiOSAPIResponse.zero.status = [] from rfl] at hstatus
      rw [show FortiOSAPIResponse.zero.httpStatus = 0 from rfl] at hhttpStatus
      dsimp only
      rw [checkAPIResponse_eq_ok, hstatus, hhttpStatus]
      simp

/-- **The answers that are accepted**, among those with a code of success. -/
theorem accepted_iff {a : Response}
    (hcode : 200 ≤ a.statusCode ∧ a.statusCode < 300) :
    Accepted a ↔ ¬Understood a.body := by
  have hsuccess : ¬(a.statusCode < 200 ∨ 300 ≤ a.statusCode) := by omega
  unfold Accepted checkResponse Understood
  rw [if_neg hsuccess]
  generalize a.body.take maxResponse = bytes
  by_cases hbytes : 0 < bytes.length
  · rw [if_pos hbytes]
    cases hdecode : Json.decode bytes with
    | none =>
        have hnone : unmarshalResponse bytes = none := by
          rw [unmarshalResponse, hdecode]
        simp [hnone]
    | some value =>
        cases value with
        | object members =>
            rw [unmarshalResponse_object hdecode]
            simp
        | null =>
            have hzero : unmarshalResponse bytes = some .zero := by
              rw [unmarshalResponse, hdecode]
            have hfine : ¬Failure FortiOSAPIResponse.zero.status
                FortiOSAPIResponse.zero.httpStatus := by
              rintro (⟨h, -⟩ | ⟨h, -⟩)
              · exact h rfl
              · exact h rfl
            rw [hzero]
            simp [checkAPIResponse_eq_ok, hfine]
        | _ =>
            have hnone : unmarshalResponse bytes = none := by
              rw [unmarshalResponse, hdecode]
            simp [hnone]
  · rw [if_neg hbytes]
    obtain rfl : bytes = [] := by simpa using hbytes
    have hempty : Json.decode [] = none := rfl
    simp [hempty]

/-! ## Answers with an error in their body -/

/-- A code of success over an object with an error. -/
structure BadAnswer (a : Response) : Prop where
  success : 200 ≤ a.statusCode ∧ a.statusCode < 300
  error : ∃ members, Json.decode a.body = some (.object members) ∧
    ((∃ s, (lit "status", .string s) ∈ members ∧ s ≠ [] ∧
        s ≠ lit "success") ∨
      ∃ text, (lit "http_status", .number text) ∈ members ∧
        Json.numberValue text ≠ 0 ∧ Json.numberValue text ≠ 200)

section Distinct

variable {members : List (GoString × Json.Value GoString)}

/-- The only member of its field. -/
theorem only_member (hdistinct : (members.filterMap fun m =>
      responseField m.1).Nodup)
    {m : GoString × Json.Value GoString} (hm : m ∈ members)
    {f : ResponseField} (hf : responseField m.1 = some f) :
    ∃ pre post, members = pre ++ m :: post ∧
      ∀ m' ∈ pre ++ post, responseField m'.1 ≠ some f := by
  obtain ⟨pre, post, rfl⟩ := List.append_of_mem hm
  refine ⟨pre, post, rfl, fun m' hm' hf' => ?_⟩
  rw [List.filterMap_append, List.filterMap_cons, hf,
    List.nodup_middle, List.nodup_cons, ← List.filterMap_append] at hdistinct
  exact hdistinct.1 (List.mem_filterMap.mpr ⟨m', hm', hf'⟩)

theorem settings_of_only {α : Type} {value : Json.Value GoString → Option α}
    {x : α} (hdistinct : (members.filterMap fun m => responseField m.1).Nodup)
    {m : GoString × Json.Value GoString} (hm : m ∈ members)
    {f : ResponseField} (hf : responseField m.1 = some f)
    (hx : value m.2 = some x) : settings f value members = [x] := by
  obtain ⟨pre, post, rfl, hothers⟩ := only_member hdistinct hm hf
  have hnone : ∀ ms : List (GoString × Json.Value GoString),
      (∀ m ∈ ms, responseField m.1 ≠ some f) → settings f value ms = [] :=
    fun ms hms => List.filterMap_eq_nil_iff.mpr fun m hm => if_neg (hms m hm)
  have honly : settings f value [m] = [x] := by
    simp [settings, hf, hx]
  rw [show pre ++ m :: post = pre ++ ([m] ++ post) from rfl, settings_append,
    settings_append, honly,
    hnone pre fun m hm => hothers m (List.mem_append_left _ hm),
    hnone post fun m hm => hothers m (List.mem_append_right _ hm)]
  rfl

/-- **Where no field is set twice**, an error is understood if every member has
a value of the type of its field. -/
theorem understood_iff_fits {a : Response} (h : BadAnswer a)
    (hsize : a.body.length ≤ maxResponse)
    (hdecode : Json.decode a.body = some (.object members))
    (hdistinct : (members.filterMap fun m => responseField m.1).Nodup) :
    Understood a.body ↔ ∀ m ∈ members, Fits m := by
  unfold Understood
  rw [List.take_of_length_le hsize, hdecode]
  constructor
  · rintro ⟨members', hmembers, hfits, -⟩
    obtain rfl := Json.Value.object.inj (Option.some.inj hmembers)
    exact hfits
  · intro hfits
    refine ⟨members, rfl, hfits, ?_⟩
    obtain ⟨members', hmembers, herror⟩ := h.error
    rw [hdecode] at hmembers
    obtain rfl := Json.Value.object.inj (Option.some.inj hmembers)
    rcases herror with ⟨s, hmem, hne, hsuccess⟩ | ⟨text, hmem, hzero, hok⟩
    · have hfield : responseField (lit "status") = some .status := by
        decide +kernel
      rw [statuses, settings_of_only hdistinct hmem hfield
        (show stringValue (.string s) = some s from rfl)]
      exact .inl ⟨hne, hsuccess⟩
    · have hfield : responseField (lit "http_status") = some .httpStatus := by
        decide +kernel
      obtain ⟨n, hn⟩ := Option.ne_none_iff_exists'.mp (hfits _ hmem _ hfield)
      have hvalue := Json.numberValue_of_parseInt hn
      rw [httpStatuses, settings_of_only hdistinct hmem hfield
        (show intValue (.number text) = some n from hn)]
      rw [hvalue] at hzero hok
      exact .inr ⟨fun heq => hzero (by
        rw [show n = 0 from heq]
        rfl), fun heq => hok (by
        rw [show n = 200 from heq]
        rfl)⟩

end Distinct

/-- The answer has been given on the way. -/
def Answered (a : Response) (net net' : Net) : Prop :=
  ∃ new, net'.exchanges = new ++ net.exchanges ∧ ∃ e ∈ new, e.response = a

/-- Whoever runs the program learns of it. -/
def Reports {ε α : Type} (a : Response) (p : Prog NetCall Net ε α) : Prop :=
  ∀ o s, p.wp o s fun r t => Answered a s.state t.state → ∃ err, r = .error err

/-- **A FortiOS error is reported** by `doFortiOSRequest` and by everything that
uses it. -/
structure Reported (a : Response) : Prop where
  request : ∀ cfg method apiPath body,
    Reports a (doFortiOSRequest cfg method apiPath body)
  upload : ∀ action payload, Reports a (uploadFortiOS action payload)
  replace : ∀ action, Reports a (replaceFortiOSProfileCert action)
  adminUpdate : ∀ action, Reports a (updateFortiOSAdminServerCert action)
  verify : ∀ cfg, Reports a (verifyFortiOSConnection cfg)

theorem reports_of_accepts {ε α : Type} {a : Response} (ha : ¬Accepted a)
    {p : Prog NetCall Net ε α} (h : ∀ o, Prog.KeepsOk o Accepts p) :
    Reports a p := by
  intro o s hanswered
  obtain ⟨new, hnew, e, he, rfl⟩ := hanswered
  cases hrun : (p o s).1 with
  | error err => exact ⟨err, rfl⟩
  | ok v =>
      obtain ⟨new', hnew', haccepted⟩ := h o s v (p o s).2 (Prod.ext hrun rfl)
      have hsame : new = new' :=
        List.append_cancel_right (hnew.symm.trans hnew')
      exact absurd (haccepted e (hsame ▸ he)) ha

/-- A FortiGate behind a name, and one that always gives the same answer. -/
private def gate : FortiOSConfig := ⟨"fw", "t", "c", "vdom", false, false⟩
private def answering (a : Response) : Net := ⟨fun _ _ => a, []⟩

/-- An answer that is accepted is not reported. -/
theorem accepted_not_reported {a : Response} (ha : Accepted a) :
    ¬Reports a (doFortiOSRequest gate "GET" "/api/v2/cmdb/system/global"
      none) := by
  intro h
  have hsent : (requestFor gate "GET" "/api/v2/cmdb/system/global" none).isOk =
      true := by decide +kernel
  cases hreq : requestFor gate "GET" "/api/v2/cmdb/system/global" none with
  | error err =>
      rw [hreq] at hsent
      cases hsent
  | ok req =>
      have hrun : doFortiOSRequest gate "GET" "/api/v2/cmdb/system/global" none =
          ask req := by
        rw [doFortiOSRequest_eq, hreq]
        rfl
      rw [hrun] at h
      obtain ⟨⟨bytes, hok⟩, hstate⟩ := ask_quiet req
        (s := ⟨answering a, 0⟩) ha
      obtain ⟨err, herr⟩ := h .quiet ⟨answering a, 0⟩
        ⟨[⟨req, a⟩], by rw [hstate]; rfl, _, List.mem_singleton_self _, rfl⟩
      rw [hok] at herr
      cases herr

/-- **When an error in the body of an answer is reported**: when the body can be
decoded and the error is what is read last. -/
theorem bad_answer_reported_iff {a : Response} (h : BadAnswer a) :
    Reported a ↔ Understood a.body := by
  have haccepted := accepted_iff h.success
  constructor
  · intro hreported
    by_contra hnot
    exact accepted_not_reported (haccepted.mpr hnot) (hreported.request _ _ _ _)
  · intro hunderstood
    have ha : ¬Accepted a := fun hacc => haccepted.mp hacc hunderstood
    exact
      { request := fun cfg method apiPath body =>
          reports_of_accepts ha fun o =>
            doFortiOSRequest_accepts o cfg method apiPath body
        upload := fun action payload =>
          reports_of_accepts ha fun o => upload_accepts o action payload
        replace := fun action =>
          reports_of_accepts ha fun o => replace_accepts o action
        adminUpdate := fun action =>
          reports_of_accepts ha fun o => adminUpdate_accepts o action
        verify := fun cfg =>
          reports_of_accepts ha fun o => verify_accepts o cfg }

/-- An answer that is a plain refusal. -/
private def refusal : Response := ⟨200, "\x7b\"status\":\"error\"\x7d"⟩

theorem bad_answer_reported_iff_refusal : Reported refusal := by
  have hdecode : Json.decode refusal.body =
      some (.object [("status", .string "error")]) := rfl
  have htake : refusal.body.take maxResponse = refusal.body := by
    decide +kernel
  refine (bad_answer_reported_iff ⟨by decide, _, hdecode, .inl
    ⟨"error", List.mem_cons_self, by decide, by decide⟩⟩).mpr
    ⟨_, by rw [htake, hdecode], ?_, .inl (by decide +kernel)⟩
  intro m hm f hf
  rw [List.mem_singleton.mp hm] at hf ⊢
  have hfield : responseField "status" = some .status := by decide +kernel
  obtain rfl := Option.some.inj (hfield.symm.trans hf)
  exact trivial

/-- The answer of a FortiGate to an update that names no object: the error code
is a number. -/
private def numberedError : Response :=
  ⟨200, "\x7b\"status\":\"error\",\"error\":-651\x7d"⟩

/-- An error with a code is taken for a success. -/
theorem numbered_error_not_reported :
    BadAnswer numberedError ∧ ¬Reported numberedError := by
  have hdecode : Json.decode numberedError.body = some (.object
      [("status", .string "error"), ("error", .number "-651")]) := rfl
  refine ⟨⟨by decide, _, hdecode, .inl
    ⟨"error", List.mem_cons_self, by decide, by decide⟩⟩, fun h => ?_⟩
  exact accepted_not_reported (by unfold Accepted; decide +kernel)
    (h.request _ _ _ _)

end Hdns.Ports.FortiOS

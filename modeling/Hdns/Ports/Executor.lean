import Hdns.Ports.FortiOS
import Hdns.Ports.SaveOutcome

/-!
# Execute

`Execute` runs the actions of a task one after the other and stops at the first
error.  `Validate` has checked the actions before: their types, that the
settings of a FortiGate are there, the methods of the updates, the names of the
parts.  It does not look into the host and the access token of a FortiGate,
which are made into a URL and a header when the request is built.

## Main results

* `requestFor_isOk_iff` — the settings from which a request can be built.
* `runAction_clean`, `runAction_fails` — the actions that an accepted
  configuration makes fail, and no others.
* `validated_runs_clean_iff` — the accepted configurations that cause no error
  at run time.
-/

namespace Hdns.Ports.Executor

open Hdns.Verified
open Hdns.Verified.GoString
open Hdns.Verified.GoUrl
open Hdns.Verified.MimeHeader (IsToken)
open Hdns.Ports.Webhook (Payload)
open Hdns.Ports.Worker
open Hdns.Ports.TaskConfigs
open Hdns.Ports.FortiOSArchive
open Hdns.Ports.FortiOSEndpoint
open Hdns.Ports.FortiOS

/-! ## Commands -/

/-- The processes of the host: what has been run, the latest command first, and
the output of the next command, and whether it succeeds. -/
structure Processes where
  run : List (List GoString) → List GoString → GoString × Bool
  ran : List (List GoString)

/-- The errors of `restartService` and `run`. -/
inductive CommandError where
  /-- `service_restart: sc stop %q: %w\n%s`. -/
  | stop (name output : GoString)
  /-- `service_restart: sc query %q state=inactive: %w\n%s`. -/
  | query (name output : GoString)
  /-- `service_restart: timeout waiting for service %q to stop`. -/
  | timeout (name : GoString)
  /-- `service_restart: sc start %q: %w\n%s`. -/
  | start (name output : GoString)
  /-- `service_restart: systemctl restart %q: %w\n%s`. -/
  | systemctl (name output : GoString)
  /-- `exec: %q: %w\n%s`. -/
  | exec (command output : GoString)
  deriving DecidableEq, Repr

/-- `exec.CommandContext`, run to its end; a command that is not run has no
output. -/
def command (err : GoString → CommandError) (args : List GoString) :
    Prog Unit Processes CommandError GoString :=
  .call () (err []) fun ps =>
    let (output, succeeds) := ps.run ps.ran args
    (if succeeds then .ok output else .error (err output.trimSpace),
      { ps with ran := args :: ps.ran })

/-- The loop that waits for a service to stop. -/
def waitStopped (name : GoString) :
    Nat → Prog Unit Processes CommandError Bool
  | 0 => pure false
  | n + 1 => do
      let out ← command (.query name) ["sc", "query", name]
      if contains out "STATE              : 1  STOPPED" then pure true
      else waitStopped name n

/-- `restartServiceWindows`: a service that is not running need not be
stopped. -/
def restartServiceWindows (name : GoString) :
    Prog Unit Processes CommandError Unit := do
  let stopped ← (command (.stop name) ["sc", "stop", name]).attempt
  match stopped with
  | .error (.stop _ output) =>
      if contains output "1062" then pure ()
      else .throw (.stop name output)
  | _ => pure ()
  if ← waitStopped name 30 then
    let _ ← command (.start name) ["sc", "start", name]
    pure ()
  else .throw (.timeout name)

/-- `restartServiceSystemd`. -/
def restartServiceSystemd (name : GoString) :
    Prog Unit Processes CommandError Unit := do
  let _ ← command (.systemctl name) ["systemctl", "restart", name]
  pure ()

/-- `restartService`. -/
def restartService (windows : Bool) (action : ActionConfig) :
    Prog Unit Processes CommandError Unit :=
  let name := action.serviceName.trimSpace
  if windows then restartServiceWindows name else restartServiceSystemd name

/-- `run`. -/
def run (windows : Bool) (action : ActionConfig) :
    Prog Unit Processes CommandError Unit := do
  let line := action.command.trimSpace
  let _ ← command (.exec line)
    (if windows then ["cmd", "/C", line] else ["sh", "-c", line])
  pure ()

/-! ## Execute -/

/-- Everything that an action can reach. -/
structure Host where
  files : Files
  processes : Processes
  net : Net

inductive HostCall where
  | file (c : Call)
  | process
  | net (c : NetCall)
  deriving DecidableEq, Repr

/-- The error of an action. -/
inductive Cause where
  | save (err : SaveError)
  | command (err : CommandError)
  | fortiOS (err : FortiOSError)
  /-- `unknown action type %q`. -/
  | unknownType (type : GoString)
  deriving DecidableEq, Repr

/-- `task %q action[%d] (%s): %w`. -/
structure TaskError where
  task : GoString
  idx : Nat
  type : GoString
  cause : Cause
  deriving DecidableEq, Repr

/-- An action on the files. -/
def onFiles (p : Action Unit) : Prog HostCall Host Cause Unit :=
  (p.within .file Host.files fun files h =>
    { h with files := files }).wrapError .save

/-- An action that runs commands. -/
def onProcesses (p : Prog Unit Processes CommandError Unit) :
    Prog HostCall Host Cause Unit :=
  (p.within (fun _ => .process) Host.processes fun processes h =>
    { h with processes := processes }).wrapError .command

/-- An action on a FortiGate. -/
def onNet (p : FortiOS.Action) : Prog HostCall Host Cause Unit :=
  (p.within .net Host.net fun net h => { h with net := net }).wrapError .fortiOS

/-- The switch over `action.Type`. -/
def runAction (windows : Bool) (action : ActionConfig) (payload : Payload) :
    Prog HostCall Host Cause Unit :=
  if action.type = actionCertSave then
    onFiles (save Base64.decodeString action.toSaveAction payload)
  else if action.type = actionServiceRestart then
    onProcesses (restartService windows action)
  else if action.type = actionExec then onProcesses (run windows action)
  else if action.type = actionFortiOSUpload then
    onNet (uploadFortiOS action payload)
  else if action.type = actionFortiOSProfileCertReplace then
    onNet (replaceFortiOSProfileCert action)
  else if action.type = actionFortiOSAdminServerCertUpdate then
    onNet (updateFortiOSAdminServerCert action)
  else .throw (.unknownType action.type)

/-- The body of the loop over `task.Actions`. -/
def taskStep (windows : Bool) (task : TaskConfig) (payload : Payload)
    (x : ActionConfig × Nat) : Prog HostCall Host TaskError Unit :=
  (runAction windows x.1 payload).wrapError fun cause =>
    ⟨task.name, x.2, x.1.type, cause⟩

/-- `Execute`. -/
def execute (windows : Bool) (task : TaskConfig) (payload : Payload) :
    Prog HostCall Host TaskError Unit :=
  task.actions.zipIdx.forM (taskStep windows task payload)

/-! ## Errors of the configuration -/

/-- No request is sent, whatever the network is like: the settings are the
cause. -/
def causedBySettings : RequestError → Bool
  | .endpoint _ | .invalidMethod _ | .invalidURL _ | .invalidHeader _
  | .noHost | .invalidPort _ => true
  | _ => false

/-- Only the configuration causes the error. -/
def Cause.fromConfig : Cause → Bool
  | .save (.combinedContainsNo _ part) => part ∉ validParts
  | .save _ => false
  | .command _ => false
  | .fortiOS (.notSet _) => true
  | .fortiOS (.payload _) => false
  | .fortiOS (.upload err) => causedBySettings err
  | .fortiOS (.update _ _ _ err) => causedBySettings err
  | .fortiOS (.adminUpdate err) => causedBySettings err
  | .fortiOS (.dryRun err) => causedBySettings err
  | .unknownType _ => true

/-- Settings from which a request can be made: the host is a URL, the authority
that is written for it is one again, with a host in it and no port but one an
address can have, and the token can stand in a header. -/
structure Sendable (cfg : FortiOSConfig) : Prop where
  host : ∃ u user host, parse (hostURL cfg.host) = .ok u ∧
    parseAuthority u.writtenAuthority = .ok (user, host) ∧
    removeEmptyPort host ≠ [] ∧
    Json.natOf (port (removeEmptyPort host)) ≤ maxPort
  accessToken : validHeaderFieldValue cfg.accessToken = true

section Settings

variable {cfg : FortiOSConfig} {method : GoString}

theorem newRequest_error {endpoint : GoString} {body : Option GoString}
    {err : RequestError} (h : newRequest method endpoint body = .error err) :
    causedBySettings err = true := by
  unfold newRequest at h
  dsimp only at h
  generalize (if method = [] then lit "GET" else method) = m at h
  split at h
  · obtain rfl := Except.error.inj h
    rfl
  · rcases Prog.except_bind_eq_error.mp h with h | ⟨u, -, h⟩
    · obtain ⟨e, -, rfl⟩ := Prog.mapError_eq_error.mp h
      rfl
    · cases h

theorem checkRequest_error {req : Request} {err : RequestError}
    (h : checkRequest req = .error err) : causedBySettings err = true := by
  unfold checkRequest refuseIf at h
  split at h
  · obtain rfl := Except.error.inj h
    rfl
  · cases Prog.except_bind_eq_error.mp h with
    | inl h =>
        split at h
        · obtain rfl := Except.error.inj h
          rfl
        · cases h
    | inr h =>
        obtain ⟨_, _, h⟩ := h
        split at h
        · obtain rfl := Except.error.inj h
          rfl
        · cases h

/-- A request that is not built is not built because of the settings. -/
theorem requestFor_error {apiPath : GoString} {body : Option GoString}
    {err : RequestError}
    (h : requestFor cfg method apiPath body = .error err) :
    causedBySettings err = true := by
  rcases Prog.except_bind_eq_error.mp h with h | ⟨endpoint, -, h⟩
  · obtain ⟨e, -, rfl⟩ := Prog.mapError_eq_error.mp h
    rfl
  rcases Prog.except_bind_eq_error.mp h with h | ⟨req, -, h⟩
  · exact newRequest_error h
  rcases Prog.except_bind_eq_error.mp h with h | ⟨-, -, h⟩
  · exact checkRequest_error h
  · cases h

/-- The access token is the only part of a header that can be refused. -/
theorem find_requestHeader (accessToken : GoString) (body : Option GoString) :
    (requestHeader accessToken body).find?
        (fun field => !validHeaderFieldValue field.2) = none ↔
      validHeaderFieldValue accessToken = true := by
  have hjson : validHeaderFieldValue (lit "application/json") = true := by
    decide +kernel
  have hbearer : validHeaderFieldValue (lit "Bearer " ++ accessToken) =
      validHeaderFieldValue accessToken := by
    unfold validHeaderFieldValue
    rw [List.all_append, show (lit "Bearer ").all (fun b => !isControl b ||
      decide (b = 0x09)) = true by decide +kernel, Bool.true_and]
  unfold requestHeader
  rw [List.find?_eq_none]
  cases body with
  | none => simp [hjson, hbearer]
  | some text => simp [hjson, hbearer]

theorem checkRequest_eq_ok {req : Request} :
    checkRequest req = .ok () ↔
      req.header.find? (fun field => !validHeaderFieldValue field.2) = none ∧
        req.url.host ≠ [] ∧ Json.natOf (port req.url.host) ≤ maxPort := by
  unfold checkRequest
  cases req.header.find? fun field => !validHeaderFieldValue field.2 with
  | none => simp [refuseIf_bind_eq_ok, refuseIf_eq_ok]
  | some field => simp

/-- **When a request can be built** does not depend on what is asked for. -/
theorem requestFor_isOk_iff (hhost : cfg.host.trimSpace ≠ [])
    (hmethod : IsToken (if method = [] then lit "GET" else method))
    (apiPath : GoString) (body : Option GoString) :
    (∃ req, requestFor cfg method apiPath body = .ok req) ↔ Sendable cfg := by
  constructor
  · rintro ⟨req, h⟩
    obtain ⟨endpoint, hendpoint, h⟩ := Prog.except_bind_eq_ok.mp h
    rw [Prog.mapError_eq_ok] at hendpoint
    obtain ⟨u, hu⟩ : ∃ u, parse (hostURL cfg.host) = .ok u := by
      rw [fortiOSEndpoint, if_neg hhost] at hendpoint
      obtain ⟨u, hu, -⟩ := Prog.except_bind_eq_ok.mp hendpoint
      exact ⟨u, Prog.mapError_eq_ok.mp hu⟩
    obtain ⟨url, hurl, hhosts⟩ := parse_endpoint hhost hu apiPath
    obtain rfl := Except.ok.inj (hendpoint.symm.trans hurl)
    obtain ⟨built, hbuilt, h⟩ := Prog.except_bind_eq_ok.mp h
    obtain ⟨_, hcheck, _⟩ := Prog.except_bind_eq_ok.mp h
    rw [newRequest, if_neg (not_not_intro hmethod)] at hbuilt
    obtain ⟨u', hu', hbuilt⟩ := Prog.except_bind_eq_ok.mp hbuilt
    rw [Prog.mapError_eq_ok] at hu'
    cases hbuilt
    obtain ⟨hheader, hnamed⟩ := checkRequest_eq_ok.mp hcheck
    rw [hu'] at hhosts
    cases hauthority : parseAuthority u.writtenAuthority with
    | error err =>
        rw [hauthority] at hhosts
        cases hhosts
    | ok authority =>
        rw [hauthority] at hhosts
        have hsame : u'.host = authority.2 := Except.ok.inj hhosts
        refine ⟨⟨u, authority.1, authority.2, hu, hauthority, ?_⟩,
          (find_requestHeader cfg.accessToken body).mp hheader⟩
        rw [← hsame]
        exact hnamed
  · rintro ⟨⟨u, user, host, hu, hauthority, hnamed⟩, htoken⟩
    obtain ⟨url, hurl, hhosts⟩ := parse_endpoint hhost hu apiPath
    rw [hauthority] at hhosts
    obtain ⟨u', hu', hsame⟩ : ∃ u', parse url = .ok u' ∧ u'.host = host := by
      cases hparse : parse url with
      | error err =>
          rw [hparse] at hhosts
          cases hhosts
      | ok u' =>
          rw [hparse] at hhosts
          exact ⟨u', rfl, Except.ok.inj hhosts⟩
    have hbuilt : newRequest method url body =
        .ok ⟨if method = [] then lit "GET" else method,
          { u' with host := removeEmptyPort u'.host }, [], body⟩ := by
      rw [newRequest, if_neg (not_not_intro hmethod), hu']
      rfl
    refine ⟨_, Prog.except_bind_eq_ok.mpr ⟨url,
      Prog.mapError_eq_ok.mpr hurl, Prog.except_bind_eq_ok.mpr ⟨_, hbuilt,
        Prog.except_bind_eq_ok.mpr ⟨(), checkRequest_eq_ok.mpr
          ⟨(find_requestHeader _ _).mpr htoken, ?_⟩, rfl⟩⟩⟩⟩
    rw [← hsame] at hnamed
    exact hnamed

end Settings

/-! ## Actions on a FortiGate -/

/-- A request of an action, and the error it is reported with. -/
structure Step where
  method : GoString
  apiPath : GoString
  body : Option GoString
  wrap : RequestError → FortiOSError

/-- The requests of an action, one after the other. -/
def requests (cfg : FortiOSConfig) (steps : List Step) : FortiOS.Action :=
  steps.forM fun step => do
    let _ ← (doFortiOSRequest cfg step.method step.apiPath step.body).wrapError
      step.wrap
    pure ()

/-- The method of the step is one, and its error is the request's. -/
structure Step.Proper (step : Step) : Prop where
  method : IsToken (if step.method = [] then lit "GET" else step.method)
  wrap : ∀ err, (Cause.fortiOS (step.wrap err)).fromConfig = causedBySettings err

/-- An action of one of the three types. -/
def UsesFortiOS (a : ActionConfig) : Prop :=
  a.type = actionFortiOSUpload ∨ a.type = actionFortiOSProfileCertReplace ∨
    a.type = actionFortiOSAdminServerCertUpdate

/-- What an action comes down to: nothing, if the payload has no archive, or at
least one request. -/
inductive ComesTo (cfg : FortiOSConfig) (payload : Payload)
    (p : FortiOS.Action) : Prop
  | refused (text : GoString) (payload : payloadPKCS12Base64 payload = .error text)
      (eq : p = .throw (.payload text))
  | requests (steps : List Step) (some : steps ≠ [])
      (proper : ∀ step ∈ steps, step.Proper) (eq : p = requests cfg steps)

section Actions

variable {a : ActionConfig} {cfg : FortiOSConfig} {payload : Payload}

theorem single_comesTo {method apiPath : GoString} {body : Option GoString}
    {wrap : RequestError → FortiOSError}
    (hmethod : IsToken (if method = [] then lit "GET" else method))
    (hwrap : ∀ err, (Cause.fortiOS (wrap err)).fromConfig = causedBySettings err) :
    ComesTo cfg payload ((doFortiOSRequest cfg method apiPath body).wrapError
      wrap >>= fun _ => pure ()) := by
  refine .requests [⟨method, apiPath, body, wrap⟩] (List.cons_ne_nil _ _) ?_ ?_
  · intro step hstep
    rw [List.mem_singleton.mp hstep]
    exact ⟨hmethod, hwrap⟩
  · simp [requests]

theorem verify_comesTo : ComesTo cfg payload (verifyFortiOSConnection cfg) :=
  single_comesTo (by decide +kernel) fun _ => rfl

theorem upload_comesTo (h : a.fortiOS = some cfg) :
    ComesTo cfg payload (uploadFortiOS a payload) := by
  simp only [uploadFortiOS, h]
  split
  · exact verify_comesTo
  · cases hencoded : payloadPKCS12Base64 payload with
    | error text => exact .refused text hencoded rfl
    | ok encoded => exact single_comesTo (by decide +kernel) fun _ => rfl

theorem isToken_of_method {method : GoString}
    (h : method ∈ [lit "PUT", lit "PATCH", lit "POST"]) :
    IsToken (if method = [] then lit "GET" else method) := by
  revert method
  decide +kernel

theorem replace_comesTo (h : a.fortiOS = some cfg)
    (hsome : a.profileUpdates ≠ []) (hready : ∀ u ∈ a.profileUpdates, UpdateReady u) :
    ComesTo cfg payload (replaceFortiOSProfileCert a) := by
  simp only [replaceFortiOSProfileCert, h]
  split
  · exact verify_comesTo
  · refine .requests (a.profileUpdates.zipIdx.map fun x =>
      ⟨x.1.method, buildFortiOSCMDBPath x.1.path x.1.mkey,
        marshalObject [(x.1.field, cfg.certName)],
        .update x.2 (buildFortiOSCMDBPath x.1.path x.1.mkey) x.1.field⟩)
      (by simpa using hsome) ?_ ?_
    · intro step hstep
      obtain ⟨x, hx, rfl⟩ := List.mem_map.mp hstep
      exact ⟨isToken_of_method (hready _ (List.fst_mem_of_mem_zipIdx hx)).method,
        fun _ => rfl⟩
    · unfold requests
      rw [Prog.forM_map]
      rfl

theorem adminUpdate_comesTo (h : a.fortiOS = some cfg) :
    ComesTo cfg payload (updateFortiOSAdminServerCert a) := by
  simp only [updateFortiOSAdminServerCert, h]
  split
  · exact verify_comesTo
  · exact single_comesTo (by decide +kernel) fun _ => rfl

end Actions

/-- An answer is never the fault of the settings. -/
theorem checkResponse_error {statusCode : Nat} {bytes : GoString}
    {err : RequestError} (h : checkResponse statusCode bytes = .error err) :
    causedBySettings err = false := by
  have hapi : ∀ r text, checkAPIResponse r text = .error err →
      causedBySettings err = false := by
    intro r text h
    unfold checkAPIResponse refuseIf at h
    rcases Prog.except_bind_eq_error.mp h with h | ⟨-, -, h⟩
    · split at h
      · obtain rfl := Except.error.inj h
        rfl
      · cases h
    · split at h
      · obtain rfl := Except.error.inj h
        rfl
      · cases h
  unfold checkResponse at h
  dsimp only at h
  split at h
  · obtain rfl := Except.error.inj h
    rfl
  split at h
  · split at h
    · exact hapi _ _ h
    · cases h
  · cases h

/-- The answers of a world in which nothing goes wrong on the network. -/
def Willing (net : Net) : Prop :=
  ∀ exchanges req, net.answer exchanges req = ⟨200, []⟩

section Requests

variable {cfg : FortiOSConfig} (hhost : cfg.host.trimSpace ≠ [])
  {method : GoString}
  (hmethod : IsToken (if method = [] then lit "GET" else method))
  (apiPath : GoString) (body : Option GoString)

include hhost hmethod

/-- Settings from which a request can be made do not cause an error. -/
theorem doFortiOSRequest_raises (hsend : Sendable cfg) :
    Prog.Raises (fun err => causedBySettings err = false)
      (doFortiOSRequest cfg method apiPath body) := by
  obtain ⟨req, hreq⟩ := (requestFor_isOk_iff hhost hmethod apiPath body).mpr hsend
  rw [doFortiOSRequest_eq, hreq]
  refine .bind (.ofExcept fun _ h => nomatch h) fun req => ?_
  refine .bind (.call rfl fun _ _ h => nomatch h) fun resp => ?_
  refine .bind (.query rfl fun _ _ h => nomatch h) fun bytes => ?_
  exact .bind (.ofExcept fun err h => checkResponse_error h) fun _ => .pure _

theorem doFortiOSRequest_completes (hsend : Sendable cfg) :
    Prog.Completes .quiet Willing (doFortiOSRequest cfg method apiPath body) := by
  obtain ⟨req, hreq⟩ := (requestFor_isOk_iff hhost hmethod apiPath body).mpr hsend
  rw [doFortiOSRequest_eq, hreq]
  intro s hs
  have hanswer : (s.state.exchange req).response = ⟨200, []⟩ := hs _ _
  have hrun := ask_quiet req (s := s) (by
    rw [hanswer]
    exact rfl)
  refine Prog.wp_mono hrun ?_
  rintro r t ⟨hr, ht⟩
  refine ⟨hr, ?_⟩
  rw [ht]
  exact hs

/-- Other settings do, whatever is asked for. -/
theorem doFortiOSRequest_throws (hsend : ¬Sendable cfg) :
    ∃ err, causedBySettings err = true ∧
      doFortiOSRequest cfg method apiPath body = .throw err := by
  rw [doFortiOSRequest_eq]
  cases hreq : requestFor cfg method apiPath body with
  | ok req =>
      exact absurd ((requestFor_isOk_iff hhost hmethod apiPath body).mp
        ⟨req, hreq⟩) hsend
  | error err => exact ⟨err, requestFor_error hreq, rfl⟩

end Requests

namespace ComesTo

variable {cfg : FortiOSConfig} {payload : Payload} {p : FortiOS.Action}

theorem raises (h : ComesTo cfg payload p) (hhost : cfg.host.trimSpace ≠ [])
    (hsend : Sendable cfg) :
    Prog.Raises (fun err => (Cause.fortiOS err).fromConfig = false) p := by
  cases h with
  | refused text hpayload eq =>
      rw [eq]
      exact .throw rfl
  | requests steps hsome proper eq =>
      rw [eq]
      refine .forM_mem fun step hstep => .bind (.wrapError ?_) fun _ => .pure ()
      have hproper := proper step hstep
      simp only [hproper.wrap]
      exact doFortiOSRequest_raises hhost hproper.method _ _ hsend

theorem completes (h : ComesTo cfg payload p) (hhost : cfg.host.trimSpace ≠ [])
    (hpayload : ∀ text, payloadPKCS12Base64 payload ≠ .error text)
    (hsend : Sendable cfg) : Prog.Completes .quiet Willing p := by
  cases h with
  | refused text hrefused eq => exact absurd hrefused (hpayload text)
  | requests steps hsome proper eq =>
      rw [eq]
      refine .forM_mem fun step hstep => .bind (.wrapError ?_ _) fun _ => .pure ()
      exact doFortiOSRequest_completes hhost (proper step hstep).method _ _ hsend

theorem throws (h : ComesTo cfg payload p) (hhost : cfg.host.trimSpace ≠ [])
    (hpayload : ∀ text, payloadPKCS12Base64 payload ≠ .error text)
    (hsend : ¬Sendable cfg) :
    ∃ err, (Cause.fortiOS err).fromConfig = true ∧ p = .throw err := by
  cases h with
  | refused text hrefused eq => exact absurd hrefused (hpayload text)
  | requests steps hsome proper eq =>
      obtain ⟨step, steps, rfl⟩ := List.exists_cons_of_ne_nil hsome
      have hproper := proper step List.mem_cons_self
      obtain ⟨err, herr, hthrow⟩ := doFortiOSRequest_throws hhost hproper.method
        step.apiPath step.body hsend
      refine ⟨step.wrap err, (hproper.wrap err).trans herr, ?_⟩
      rw [eq]
      show ((doFortiOSRequest cfg step.method step.apiPath step.body).wrapError
        step.wrap >>= fun _ => pure ()) >>= (fun _ => Executor.requests cfg steps) = _
      rw [hthrow]
      rfl

end ComesTo

/-! ## The other actions -/

/-- Errors of `save` that are not about unknown parts. -/
def KnownParts (step : Script.Step SaveError GoString GoString) : Prop :=
  match step with
  | .skip => True
  | .write err _ _ => (Cause.save err).fromConfig = false
  | .stop err => (Cause.save err).fromConfig = false

theorem saveScript_knownParts {a : SaveAction} (h : CertSaveReady a)
    (payload : Payload) :
    ∀ step ∈ SaveOutcome.saveScript Base64.decodeString a payload,
      KnownParts step := by
  cases hpkcs12 : pkcs12Bytes Base64.decodeString payload with
  | error err =>
      rw [SaveOutcome.saveScript, hpkcs12]
      obtain ⟨text, rfl⟩ := SaveOutcome.pkcs12Bytes_error hpkcs12
      intro step hstep
      rw [List.mem_singleton.mp hstep]
      rfl
  | ok pkcs12 =>
      rw [SaveOutcome.saveScript_ok hpkcs12]
      intro step hstep
      rcases List.mem_append.mp hstep with hstep | hstep
      · obtain ⟨e, -, rfl⟩ := List.mem_map.mp hstep
        unfold SaveOutcome.entryStep
        split
        · exact trivial
        split
        · rfl
        · rfl
      · obtain ⟨cf, hcf, rfl⟩ := List.mem_map.mp hstep
        rw [SaveOutcome.combinedStep_eq]
        cases hfind : cf.parts.find? (SaveOutcome.lacks payload) with
        | none => rfl
        | some part =>
            have hknown := (h.combined cf hcf).known part
              (List.mem_of_find?_eq_some hfind)
            exact decide_eq_false (not_not_intro hknown)

/-- **The parts of an accepted action** are never the cause of an error. -/
theorem save_raises {a : SaveAction} (h : CertSaveReady a) (payload : Payload) :
    Prog.Raises (fun err => (Cause.save err).fromConfig = false)
      (save Base64.decodeString a payload) := by
  have hknown := saveScript_knownParts h payload
  intro o s
  refine Prog.wp_mono (SaveOutcome.save_ends Base64.decodeString a payload o s) ?_
  rintro r t (rfl | ⟨err, rfl, key, value, hmem⟩ | ⟨rfl, -⟩) err' herr
  · obtain rfl := Except.error.inj herr
    rfl
  · obtain rfl := Except.error.inj herr
    exact hknown _ hmem
  · cases hstop : Script.stopped (SaveOutcome.saveScript Base64.decodeString a
        payload) with
    | none =>
        rw [hstop] at herr
        cases herr
    | some err =>
        rw [hstop] at herr
        obtain rfl := Except.error.inj herr
        exact hknown _ (Script.mem_of_stopped hstop)

/-- A payload that has everything. -/
def complete : Payload := ⟨"c", "c", "c", "c", "pem", "QUJD", "QUJD"⟩

theorem save_completes {a : SaveAction} (h : CertSaveReady a) :
    Prog.Completes .quiet (fun _ => True)
      (save Base64.decodeString a complete) := by
  intro s _
  obtain ⟨hr, -⟩ := SaveOutcome.save_quiet Base64.decodeString a complete s
  have hpkcs12 : pkcs12Bytes Base64.decodeString complete = .ok "ABC" := by
    decide +kernel
  have hstop : Script.stopped
      (SaveOutcome.saveScript Base64.decodeString a complete) = none := by
    rw [Script.stopped_eq_none_iff, SaveOutcome.kinds_saveScript hpkcs12]
    intro found hfound
    rcases List.mem_append.mp hfound with hfound | hfound
    · obtain ⟨e, he, rfl⟩ := List.mem_map.mp hfound
      have hcontent : ∀ e ∈ entries a complete "ABC", e.content ≠ [] := by
        simp only [entries, List.forall_mem_cons]
        decide
      exact decide_eq_true (hcontent e (List.mem_of_mem_filter he))
    · obtain ⟨cf, hcf, rfl⟩ := List.mem_map.mp hfound
      have hparts : ∀ part ∈ validParts, SaveOutcome.lacks complete part = false := by
        decide +kernel
      rw [Bool.not_eq_true', List.any_eq_false]
      intro part hpart
      rw [hparts part ((h.combined cf hcf).known part hpart)]
      decide
  rw [hstop] at hr
  exact ⟨⟨(), hr⟩, trivial⟩

/-- What `sc query` prints of a service that is stopped. -/
def stoppedText : GoString := "STATE              : 1  STOPPED"

/-- Every command succeeds, and every service is stopped. -/
def Obliging (ps : Processes) : Prop :=
  ∀ ran args, ps.run ran args = (stoppedText, true)

theorem command_obliging (err : GoString → CommandError) (args : List GoString)
    {s : Sys Processes} (hs : Obliging s.state) :
    (command err args).wp .quiet s fun r t =>
      r = .ok stoppedText ∧ Obliging t.state := by
  unfold command
  rw [Prog.wp_call_quiet, hs s.state.ran args]
  exact ⟨rfl, hs⟩

theorem command_completes (err : GoString → CommandError)
    (args : List GoString) :
    Prog.Completes .quiet Obliging (command err args) :=
  fun _ hs => Prog.wp_mono (command_obliging err args hs) fun _ _ h =>
    ⟨⟨_, h.1⟩, h.2⟩

theorem waitStopped_obliging (name : GoString) (n : Nat) {s : Sys Processes}
    (hs : Obliging s.state) :
    (waitStopped name (n + 1)).wp .quiet s fun r t =>
      r = .ok true ∧ Obliging t.state := by
  refine Prog.wp_bind_of (command_obliging _ _ hs) ?_ ?_
  · rintro err t ⟨hr, -⟩
    cases hr
  · rintro out t ⟨hr, ht⟩
    obtain rfl := Except.ok.inj hr
    have hstopped : contains stoppedText
        (lit "STATE              : 1  STOPPED") = true := by decide +kernel
    rw [if_pos hstopped]
    exact ⟨rfl, ht⟩

theorem restartService_completes (windows : Bool) (a : ActionConfig) :
    Prog.Completes .quiet Obliging (restartService windows a) := by
  unfold restartService
  dsimp only
  split
  · intro s hs
    have hstop : (command (.stop a.serviceName.trimSpace)
        ["sc", "stop", a.serviceName.trimSpace]).attempt.wp .quiet s fun r t =>
          r = .ok (.ok stoppedText) ∧ Obliging t.state := by
      refine (Prog.wp_attempt _ _).mpr
        (Prog.wp_mono (command_obliging _ _ hs) ?_)
      rintro r t ⟨rfl, ht⟩
      exact ⟨rfl, ht⟩
    refine Prog.wp_bind_of hstop ?_ ?_
    · rintro err t ⟨hr, -⟩
      cases hr
    · rintro stopped t ⟨hr, ht⟩
      obtain rfl := Except.ok.inj hr
      refine Prog.wp_bind_of (waitStopped_obliging _ 29 ht) ?_ ?_
      · rintro err t ⟨hr, -⟩
        cases hr
      · rintro stopped u ⟨hr, hu⟩
        obtain rfl := Except.ok.inj hr
        exact Prog.Completes.bind (command_completes _ _) (fun _ => .pure ()) u hu
  · exact .bind (command_completes _ _) fun _ => .pure ()

theorem run_completes (windows : Bool) (a : ActionConfig) :
    Prog.Completes .quiet Obliging (run windows a) :=
  .bind (command_completes _ _) fun _ => .pure ()

/-! ## An action that has passed the checks -/

/-- What an action that has passed the checks does. -/
inductive Runs (windows : Bool) (a : ActionConfig) (payload : Payload)
    (p : Prog HostCall Host Cause Unit) : Prop
  | save (other : ¬UsesFortiOS a) (ready : CertSaveReady a.toSaveAction)
      (eq : p = onFiles (save Base64.decodeString a.toSaveAction payload))
  | command (other : ¬UsesFortiOS a) (q : Prog Unit Processes CommandError Unit)
      (obliged : Prog.Completes .quiet Obliging q) (eq : p = onProcesses q)
  | fortiOS (uses : UsesFortiOS a) (cfg : FortiOSConfig)
      (settings : a.fortiOS = some cfg) (ready : FortiOSReady cfg)
      (q : FortiOS.Action) (comesTo : ComesTo cfg payload q) (eq : p = onNet q)

theorem not_usesFortiOS {a : ActionConfig} {type : GoString} (h : a.type = type)
    (htype : type ∉ [actionFortiOSUpload, actionFortiOSProfileCertReplace,
      actionFortiOSAdminServerCertUpdate]) : ¬UsesFortiOS a := by
  rintro (h' | h' | h')
  · exact htype (by simp [← h, h'])
  · exact htype (by simp [← h, h'])
  · exact htype (by simp [← h, h'])

theorem runAction_runs {a : ActionConfig} (h : a.Ready) (windows : Bool)
    (payload : Payload) :
    Runs windows a payload (runAction windows a payload) := by
  cases h with
  | certSave type save =>
      refine .save (not_usesFortiOS type (by decide)) save ?_
      rw [runAction, if_pos type]
  | serviceRestart type _ =>
      refine .command (not_usesFortiOS type (by decide)) _
        (restartService_completes windows a) ?_
      rw [runAction, type, if_neg (by decide), if_pos rfl]
  | exec type _ =>
      refine .command (not_usesFortiOS type (by decide)) _
        (run_completes windows a) ?_
      rw [runAction, type, if_neg (by decide), if_neg (by decide), if_pos rfl]
  | upload type cfg settings ready =>
      refine .fortiOS (.inl type) cfg settings ready _
        (upload_comesTo settings) ?_
      rw [runAction, type, if_neg (by decide), if_neg (by decide),
        if_neg (by decide), if_pos rfl]
  | replace type cfg settings ready hsome updates =>
      refine .fortiOS (.inr (.inl type)) cfg settings ready _
        (replace_comesTo settings hsome updates) ?_
      rw [runAction, type, if_neg (by decide), if_neg (by decide),
        if_neg (by decide), if_neg (by decide), if_pos rfl]
  | adminUpdate type cfg settings ready =>
      refine .fortiOS (.inr (.inr type)) cfg settings ready _
        (adminUpdate_comesTo settings) ?_
      rw [runAction, type, if_neg (by decide), if_neg (by decide),
        if_neg (by decide), if_neg (by decide), if_neg (by decide), if_pos rfl]

/-- The FortiGate of the action, if it has one, can be reached. -/
def Reachable (a : ActionConfig) : Prop :=
  UsesFortiOS a → ∀ cfg, a.fortiOS = some cfg → Sendable cfg

/-- A host on which nothing goes wrong. -/
structure Friendly (h : Host) : Prop where
  processes : Obliging h.processes
  net : Willing h.net

theorem complete_archive (text : GoString) :
    payloadPKCS12Base64 complete ≠ .error text := by
  have hencoded : payloadPKCS12Base64 complete = .ok "QUJD" := by decide +kernel
  rw [hencoded]
  intro h
  cases h

theorem onFiles_completes {p : Action Unit}
    (h : Prog.Completes .quiet (fun _ => True) p) :
    Prog.Completes .quiet Friendly (onFiles p) :=
  Prog.Completes.wrapError (Prog.Completes.within h
    (fun _ _ => trivial) fun _ _ hw _ => ⟨hw.processes, hw.net⟩) _

theorem onProcesses_completes {p : Prog Unit Processes CommandError Unit}
    (h : Prog.Completes .quiet Obliging p) :
    Prog.Completes .quiet Friendly (onProcesses p) :=
  Prog.Completes.wrapError (Prog.Completes.within h
    (fun _ hw => hw.processes) fun _ _ hw hx => ⟨hx, hw.net⟩) _

theorem onNet_completes {p : FortiOS.Action}
    (h : Prog.Completes .quiet Willing p) :
    Prog.Completes .quiet Friendly (onNet p) :=
  Prog.Completes.wrapError (Prog.Completes.within h
    (fun _ hw => hw.net) fun _ _ hw hx => ⟨hw.processes, hx⟩) _

section Ready

variable {windows : Bool} {a : ActionConfig} (h : a.Ready)

include h

/-- **No error is the fault of the configuration** if the FortiGate can be
reached. -/
theorem runAction_clean (hreach : Reachable a) (payload : Payload) :
    Prog.Raises (fun cause => cause.fromConfig = false)
      (runAction windows a payload) := by
  cases runAction_runs h windows payload with
  | save _ ready eq =>
      rw [eq]
      exact .wrapError (.within (save_raises ready payload))
  | command _ q _ eq =>
      rw [eq]
      exact .wrapError (.of_forall (fun _ => rfl) _)
  | fortiOS uses cfg settings ready q comesTo eq =>
      rw [eq]
      exact .wrapError (.within
        (comesTo.raises ready.host (hreach uses cfg settings)))

theorem runAction_completes (hreach : Reachable a) :
    Prog.Completes .quiet Friendly (runAction windows a complete) := by
  cases runAction_runs h windows complete with
  | save _ ready eq =>
      rw [eq]
      exact onFiles_completes (save_completes ready)
  | command _ q obliged eq =>
      rw [eq]
      exact onProcesses_completes obliged
  | fortiOS uses cfg settings ready q comesTo eq =>
      rw [eq]
      exact onNet_completes (comesTo.completes ready.host complete_archive
        (hreach uses cfg settings))

/-- An action on a FortiGate that cannot be reached fails at once, and because
of the configuration. -/
theorem runAction_fails (hreach : ¬Reachable a) :
    ∃ cause, cause.fromConfig = true ∧
      runAction windows a complete = .throw cause := by
  cases runAction_runs h windows complete with
  | save other _ _ => exact absurd (fun uses => absurd uses other) hreach
  | command other _ _ _ => exact absurd (fun uses => absurd uses other) hreach
  | fortiOS uses cfg settings ready q comesTo eq =>
      have hsend : ¬Sendable cfg := by
        intro hsend
        refine hreach fun _ cfg' settings' => ?_
        obtain rfl := Option.some.inj (settings.symm.trans settings')
        exact hsend
      obtain ⟨err, herr, hthrow⟩ := comesTo.throws ready.host complete_archive
        hsend
      exact ⟨.fortiOS err, herr, by rw [eq, hthrow]; rfl⟩

end Ready

/-! ## Whole tasks -/

section Task

variable (windows : Bool) (task : TaskConfig)

theorem execute_clean (hready : ∀ a ∈ task.actions, a.Ready)
    (hreach : ∀ a ∈ task.actions, Reachable a) (payload : Payload) :
    Prog.Raises (fun err => err.cause.fromConfig = false)
      (execute windows task payload) := by
  refine .forM_mem fun x hx => .wrapError ?_
  have ha := List.fst_mem_of_mem_zipIdx hx
  exact runAction_clean (hready _ ha) (hreach _ ha) payload

/-- The actions in front of the first whose FortiGate cannot be reached
complete, and that one fails. -/
theorem taskSteps_fail (xs : List (ActionConfig × Nat))
    (hready : ∀ x ∈ xs, x.1.Ready) (hreach : ∃ x ∈ xs, ¬Reachable x.1)
    (s : Sys Host) (hs : Friendly s.state) :
    (xs.forM (taskStep windows task complete)).wp .quiet s fun r _ =>
      ∃ err, r = .error err ∧ err.cause.fromConfig = true := by
  induction xs generalizing s with
  | nil =>
      obtain ⟨x, hx, -⟩ := hreach
      cases hx
  | cons x xs ih =>
      show (taskStep windows task complete x >>= fun _ =>
        xs.forM (taskStep windows task complete)).wp _ _ _
      have hx := hready x List.mem_cons_self
      by_cases hfirst : Reachable x.1
      · have hcompletes : Prog.Completes .quiet Friendly
            (taskStep windows task complete x) :=
          .wrapError (runAction_completes hx hfirst) _
        refine Prog.wp_bind_of (hcompletes s hs) ?_ ?_
        · rintro err t ⟨⟨_, h⟩, -⟩
          cases h
        · rintro _ t ⟨-, ht⟩
          refine ih (fun y hy => hready y (List.mem_cons_of_mem x hy)) ?_ t ht
          obtain ⟨y, hy, hnot⟩ := hreach
          rcases List.mem_cons.mp hy with rfl | hy
          · exact absurd hfirst hnot
          · exact ⟨y, hy, hnot⟩
      · have hfails : ∃ cause, cause.fromConfig = true ∧
            runAction windows x.1 complete = .throw cause :=
          runAction_fails hx hfirst
        obtain ⟨cause, hcause, hthrow⟩ := hfails
        unfold taskStep
        rw [hthrow]
        exact ⟨_, rfl, hcause⟩

end Task

/-- **The configuration is never the cause of an error** at run time: no run
ends with such an error, and no FortiGate action lacks settings or has an update
with another method. -/
structure NoConfigurationError (windows : Bool) (c : WorkerConfig) : Prop where
  runs : ∀ task ∈ c.tasks, ∀ payload,
    Prog.Raises (fun err => err.cause.fromConfig = false)
      (execute windows task payload)
  settings : ∀ task ∈ c.tasks, ∀ a ∈ task.actions, UsesFortiOS a →
    ∃ cfg, a.fortiOS = some cfg ∧ FortiOSReady cfg
  methods : ∀ task ∈ c.tasks, ∀ a ∈ task.actions,
    a.type = actionFortiOSProfileCertReplace → ∀ u ∈ a.profileUpdates,
      u.method ∈ [lit "PUT", lit "PATCH", lit "POST"]

theorem settings_of_ready {a : ActionConfig} (h : a.Ready) (uses : UsesFortiOS a) :
    ∃ cfg, a.fortiOS = some cfg ∧ FortiOSReady cfg := by
  cases runAction_runs h false complete with
  | save other _ _ => exact absurd uses other
  | command other _ _ _ => exact absurd uses other
  | fortiOS _ cfg settings ready _ _ _ => exact ⟨cfg, settings, ready⟩

theorem methods_of_ready {a : ActionConfig} (h : a.Ready)
    (htype : a.type = actionFortiOSProfileCertReplace) :
    ∀ u ∈ a.profileUpdates, u.method ∈ [lit "PUT", lit "PATCH", lit "POST"] := by
  cases h with
  | certSave type => exact absurd (htype.symm.trans type) (by decide)
  | serviceRestart type => exact absurd (htype.symm.trans type) (by decide)
  | exec type => exact absurd (htype.symm.trans type) (by decide)
  | upload type => exact absurd (htype.symm.trans type) (by decide)
  | replace _ _ _ _ _ updates => exact fun u hu => (updates u hu).method
  | adminUpdate type => exact absurd (htype.symm.trans type) (by decide)

/-- **When an accepted configuration causes no error**: every FortiGate it names
can be reached by a request. -/
theorem validated_runs_clean_iff {upper : Nat → Nat} {c c' : WorkerConfig}
    (h : c.validate upper = .ok c') (windows : Bool) :
    NoConfigurationError windows c' ↔
      ∀ task ∈ c'.tasks, ∀ a ∈ task.actions, Reachable a := by
  have hready := validate_ready h
  constructor
  · intro hclean task htask
    by_contra hnot
    obtain ⟨a, ha⟩ := not_forall.mp hnot
    obtain ⟨hmem, hreach⟩ := Classical.not_imp.mp ha
    obtain ⟨i, hi⟩ := List.mem_iff_getElem?.mp hmem
    have hfails := taskSteps_fail windows task task.actions.zipIdx
      (fun x hx => hready task htask _ (List.fst_mem_of_mem_zipIdx hx))
      ⟨(a, i), List.mk_mem_zipIdx_iff_getElem?.mpr hi, hreach⟩
      ⟨⟨fun _ => none, ⟨fun _ _ => (stoppedText, true), []⟩,
        ⟨fun _ _ => ⟨200, []⟩, []⟩⟩, 0⟩
      ⟨fun _ _ => rfl, fun _ _ => rfl⟩
    obtain ⟨err, herr, hcause⟩ := hfails
    have hnone := hclean.runs task htask complete _ _ err herr
    rw [hnone] at hcause
    cases hcause
  · intro hreach
    exact
      { runs := fun task htask payload =>
          execute_clean windows task (hready task htask) (hreach task htask)
            payload
        settings := fun task htask a ha =>
          settings_of_ready (hready task htask a ha)
        methods := fun task htask a ha =>
          methods_of_ready (hready task htask a ha) }

/-- A configuration that updates the certificate of one FortiGate. -/
private def updateOf (host : GoString) : ActionConfig where
  certDir := []
  certFile := []
  chainFile := []
  fullchainFile := []
  keyFile := []
  pkcs12File := []
  combinedFiles := []
  type := actionFortiOSAdminServerCertUpdate
  serviceName := []
  command := []
  fortiOS := some ⟨host, "token", "cert", "vdom", false, false⟩
  profileUpdates := []

private def updating (host : GoString) : WorkerConfig :=
  ⟨1, 8080, "s", [⟨"t", [updateOf host]⟩]⟩

theorem validated_runs_clean_iff_named :
    NoConfigurationError false (updating "fw:8443") := by
  have haccepted : (updating "fw:8443").validate id = .ok (updating "fw:8443") := by
    decide +kernel
  refine (validated_runs_clean_iff haccepted false).mpr ?_
  intro task htask a ha _ cfg hcfg
  rw [List.mem_singleton.mp htask] at ha
  rw [List.mem_singleton.mp ha] at hcfg
  obtain rfl := Option.some.inj hcfg
  have hparse : parse (hostURL "fw:8443") =
      .ok { Url.zero with scheme := "https", host := "fw:8443" } := by
    decide +kernel
  have hauthority : parseAuthority
      { Url.zero with scheme := "https", host := "fw:8443" }.writtenAuthority =
        .ok (none, "fw:8443") := by decide +kernel
  exact ⟨⟨_, none, "fw:8443", hparse, hauthority, by decide +kernel,
    by decide +kernel⟩, by decide +kernel⟩

/-- The error of every run of a task whose FortiGate has a port that is no
number. -/
private def invalidPort : TaskError :=
  ⟨"t", 0, actionFortiOSAdminServerCertUpdate,
    .fortiOS (.adminUpdate (.endpoint (.invalidHost (.port ":port"))))⟩

/-- A port that is no number passes the checks, and no request is ever made. -/
theorem invalid_port_accepted :
    (updating "fw:port").validate id = .ok (updating "fw:port") ∧
      (∀ windows payload o s, (execute windows ⟨"t", [updateOf "fw:port"]⟩
        payload o s).1 = .error invalidPort) ∧
      ¬NoConfigurationError false (updating "fw:port") := by
  have hendpoint : fortiOSEndpoint ⟨"fw:port", "token", "cert", "vdom", false, false⟩
      "/api/v2/cmdb/system/global" =
        .error (.invalidHost (.port ":port")) := by decide +kernel
  have hrun : ∀ windows payload, runAction windows (updateOf "fw:port") payload =
      .throw invalidPort.cause := by
    intro windows payload
    rw [runAction, updateOf, if_neg (by decide), if_neg (by decide),
      if_neg (by decide), if_neg (by decide), if_neg (by decide), if_pos rfl]
    unfold updateFortiOSAdminServerCert doFortiOSRequest
    simp only [hendpoint]
    rfl
  have hexecute : ∀ windows payload o s, (execute windows
      ⟨"t", [updateOf "fw:port"]⟩ payload o s).1 = .error invalidPort := by
    intro windows payload o s
    show ((taskStep windows _ payload (updateOf "fw:port", 0) >>= fun _ =>
      pure ()) o s).1 = _
    unfold taskStep
    rw [hrun]
    rfl
  refine ⟨by decide +kernel, hexecute, fun hclean => ?_⟩
  have hnone := hclean.runs _ List.mem_cons_self complete .quiet
    ⟨⟨fun _ => none, ⟨fun _ _ => (stoppedText, true), []⟩,
      ⟨fun _ _ => ⟨200, []⟩, []⟩⟩, 0⟩ _ (hexecute _ _ _ _)
  cases hnone

end Hdns.Ports.Executor

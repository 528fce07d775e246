import Hdns.Ports.Worker
import Hdns.Verified.JsonString

/-!
# The configuration of the worker

`WorkerConfig.Validate` checks the tasks of the worker and completes their
actions in place: the scope of a FortiGate and the method of a profile update
have defaults, and some fields are trimmed.  What is returned here is the
configuration as it is afterwards.

## Main results

* `ActionConfig.Ready` — what an action that has passed the checks can rely on.
* `defaults_ready`, `validate_ready` — the checks establish it.
* `defaults_certSave` — a `cert_save` action is left as it is.
* `defaults_isOk`, `validate_isOk` — what passes the checks, by the fields that
  the type of an action needs.
-/

namespace Hdns.Ports.TaskConfigs

open Hdns.Verified
open Hdns.Verified.GoString
open Hdns.Ports.Worker

/-! ## The data -/

def actionCertSave : GoString := "cert_save"
def actionServiceRestart : GoString := "service_restart"
def actionExec : GoString := "exec"
def actionFortiOSUpload : GoString := "fortios_upload"
def actionFortiOSProfileCertReplace : GoString := "fortios_profile_cert_replace"
def actionFortiOSAdminServerCertUpdate : GoString :=
  "fortios_admin_server_cert_update"

structure FortiOSConfig where
  host : GoString
  accessToken : GoString
  certName : GoString
  scope : GoString
  tlsInsecure : Bool
  dryRun : Bool
  deriving DecidableEq, Repr

structure FortiOSProfileUpdate where
  path : GoString
  mkey : GoString
  field : GoString
  method : GoString
  deriving DecidableEq, Repr

/-- The `cert_save` fields are those of `SaveAction`; `ActionType` is a text
that the configuration file can set to anything. -/
structure ActionConfig extends SaveAction where
  type : GoString
  serviceName : GoString
  command : GoString
  fortiOS : Option FortiOSConfig
  profileUpdates : List FortiOSProfileUpdate
  deriving DecidableEq, Repr

structure TaskConfig where
  name : GoString
  actions : List ActionConfig
  deriving DecidableEq, Repr

structure WorkerConfig where
  logLevel : Int64
  port : UInt16
  secret : GoString
  tasks : List TaskConfig
  deriving DecidableEq, Repr

/-! ## Errors -/

/-- The errors of `defaults`, without the location in front of them. -/
inductive ActionError where
  /-- `%s (<type>): <message>`. -/
  | ofType (type message : GoString)
  /-- `%s (cert_save): combined_files[%d]: filename must not be empty`. -/
  | combinedNoFilename (k : Nat)
  /-- `%s (cert_save): combined_files[%d] (%s): parts must not be empty`. -/
  | combinedNoParts (k : Nat) (filename : GoString)
  /-- `%s (cert_save): combined_files[%d] (%s): unknown part %q (valid: cert,
  chain, fullchain, key)`. -/
  | combinedUnknownPart (k : Nat) (filename part : GoString)
  /-- `%s: <message>`, of `validateFortiOSConfig`. -/
  | ofFortiOS (message : GoString)
  /-- `%s (fortios_profile_cert_replace): profile_updates[%d].<message>`. -/
  | ofUpdate (k : Nat) (message : GoString)
  /-- `%s: unknown action type %q (valid: ...)`. -/
  | unknownType (type : GoString)
  deriving DecidableEq, Repr

/-- The errors of `Validate`. -/
inductive ConfigError where
  /-- `config: port must be a valid TCP port number`. -/
  | port
  /-- `config: task[%d]: name must not be empty`. -/
  | noName (i : Nat)
  /-- `config: task %q is defined more than once`. -/
  | duplicate (name : GoString)
  /-- `config: task %q: must define at least one action`. -/
  | noActions (name : GoString)
  /-- An error of `defaults`, at `config: task %q action[%d]`. -/
  | action (name : GoString) (idx : Nat) (err : ActionError)
  deriving DecidableEq, Repr

/-! ## The checks of an action -/

def validParts : List GoString := ["cert", "chain", "fullchain", "key"]

/-- The body of the loop over `a.CombinedFiles`. -/
def checkCombined (k : Nat) (cf : CombinedFile) : Except ActionError Unit := do
  refuseIf (cf.filename.trimSpace = []) (.combinedNoFilename k)
  refuseIf (cf.parts = []) (.combinedNoParts k cf.filename)
  cf.parts.forM fun p =>
    refuseIf (p ∉ validParts) (.combinedUnknownPart k cf.filename p)

/-- The case `ActionCertSave`. -/
def checkCertSave (a : ActionConfig) : Except ActionError Unit := do
  refuseIf (a.certDir.trimSpace = [])
    (.ofType a.type "cert_dir must not be empty")
  refuseIf (a.certFile = [] ∧ a.chainFile = [] ∧ a.fullchainFile = [] ∧
      a.keyFile = [] ∧ a.pkcs12File = [] ∧ a.combinedFiles = [])
    (.ofType a.type "at least one of cert_file, chain_file, fullchain_file, key_file, pkcs12_file, combined_files must be set")
  a.combinedFiles.zipIdx.forM fun x => checkCombined x.2 x.1

/-- `validateFortiOSConfig`, with the scope it sets. -/
def validateFortiOSConfig (cfg : FortiOSConfig) :
    Except ActionError FortiOSConfig := do
  refuseIf (cfg.host.trimSpace = []) (.ofFortiOS "fortios.host must not be empty")
  refuseIf (cfg.accessToken.trimSpace = [])
    (.ofFortiOS "fortios.access_token must not be empty")
  refuseIf (cfg.certName.trimSpace = [])
    (.ofFortiOS "fortios.certname must not be empty")
  let scope := cfg.scope.trimSpace
  let scope := if scope = [] then lit "vdom" else scope
  refuseIf (scope ≠ lit "vdom" ∧ scope ≠ lit "global")
    (.ofFortiOS "fortios.scope must be one of: vdom, global")
  pure { cfg with scope := scope }

/-- The settings of a FortiGate, which the three types share. -/
def requireFortiOS (a : ActionConfig) : Except ActionError FortiOSConfig :=
  match a.fortiOS with
  | none => .error (.ofType a.type "fortios must be set")
  | some cfg => validateFortiOSConfig cfg

/-- `strings.ToUpper`; `upper` is `unicode.ToUpper` on the runes outside
ASCII. -/
def toUpper (upper : Nat → Nat) (s : GoString) : GoString :=
  let upperByte := fun b : UInt8 => if 0x61 ≤ b ∧ b ≤ 0x7A then b - 0x20 else b
  if s.all (· < 0x80) then s.map upperByte
  else s.runes.flatMap fun r =>
    if r.1 < 0x80 then r.2.map upperByte else Json.encodeRune (upper r.1)

/-- The body of the loop over `a.ProfileUpdates`. -/
def completeUpdate (upper : Nat → Nat) (k : Nat) (u : FortiOSProfileUpdate) :
    Except ActionError FortiOSProfileUpdate := do
  let path := u.path.trimSpace
  let field := u.field.trimSpace
  let method := toUpper upper u.method.trimSpace
  refuseIf (path = []) (.ofUpdate k "path must not be empty")
  refuseIf (field = []) (.ofUpdate k "field must not be empty")
  let method := if method = [] then lit "PUT" else method
  refuseIf (method ∉ [lit "PUT", lit "PATCH", lit "POST"])
    (.ofUpdate k "method must be one of PUT, PATCH, POST")
  pure ⟨path, u.mkey, field, method⟩

/-- `defaults`: the action with its defaults filled in. -/
def ActionConfig.defaults (upper : Nat → Nat) (a : ActionConfig) :
    Except ActionError ActionConfig :=
  if a.type = actionCertSave then do
    checkCertSave a
    pure a
  else if a.type = actionServiceRestart then do
    refuseIf (a.serviceName.trimSpace = [])
      (.ofType a.type "service_name must not be empty")
    pure a
  else if a.type = actionExec then do
    refuseIf (a.command.trimSpace = [])
      (.ofType a.type "command must not be empty")
    pure a
  else if a.type = actionFortiOSUpload then do
    let cfg ← requireFortiOS a
    pure { a with fortiOS := some cfg }
  else if a.type = actionFortiOSProfileCertReplace then do
    let cfg ← requireFortiOS a
    refuseIf (a.profileUpdates = [])
      (.ofType a.type "profile_updates must not be empty")
    let updates ← a.profileUpdates.zipIdx.mapM fun x =>
      completeUpdate upper x.2 x.1
    pure { a with fortiOS := some cfg, profileUpdates := updates }
  else if a.type = actionFortiOSAdminServerCertUpdate then do
    let cfg ← requireFortiOS a
    pure { a with fortiOS := some cfg }
  else .error (.unknownType a.type)

/-! ## `Validate` -/

/-- The body of the loop over `c.Tasks`; `names` are those of the tasks
before. -/
def completeTask (upper : Nat → Nat) (names : List GoString) (i : Nat)
    (t : TaskConfig) : Except ConfigError TaskConfig := do
  refuseIf (t.name.trimSpace = []) (.noName i)
  refuseIf (t.name ∈ names) (.duplicate t.name)
  refuseIf (t.actions = []) (.noActions t.name)
  let actions ← t.actions.zipIdx.mapM fun x =>
    (x.1.defaults upper).mapError (.action t.name x.2)
  pure { t with actions := actions }

/-- The loop over `c.Tasks`. -/
def completeTasks (upper : Nat → Nat) :
    List GoString → Nat → List TaskConfig → Except ConfigError (List TaskConfig)
  | _, _, [] => .ok []
  | names, i, t :: ts => do
      let t' ← completeTask upper names i t
      let ts' ← completeTasks upper (t.name :: names) (i + 1) ts
      pure (t' :: ts')

/-- `Validate`. -/
def WorkerConfig.validate (upper : Nat → Nat) (c : WorkerConfig) :
    Except ConfigError WorkerConfig := do
  refuseIf (c.port = 0) .port
  let tasks ← completeTasks upper [] 0 c.tasks
  pure { c with tasks := tasks }

/-! ## What has passed the checks -/

/-- A combined file that has a name and known parts. -/
structure CombinedReady (cf : CombinedFile) : Prop where
  filename : cf.filename.trimSpace ≠ []
  parts : cf.parts ≠ []
  known : ∀ p ∈ cf.parts, p ∈ validParts

/-- Something to write, and where to. -/
@[mk_iff]
structure CertSaveReady (a : SaveAction) : Prop where
  certDir : a.certDir.trimSpace ≠ []
  output : a.filenames.any (· ≠ []) = true ∨ a.combinedFiles ≠ []
  combined : ∀ cf ∈ a.combinedFiles, CombinedReady cf

/-- Settings of a FortiGate that are complete. -/
structure FortiOSReady (cfg : FortiOSConfig) : Prop where
  host : cfg.host.trimSpace ≠ []
  accessToken : cfg.accessToken.trimSpace ≠ []
  certName : cfg.certName.trimSpace ≠ []
  scope : cfg.scope = lit "vdom" ∨ cfg.scope = lit "global"

/-- An update of a profile that says what to set, and how. -/
structure UpdateReady (u : FortiOSProfileUpdate) : Prop where
  path : u.path ≠ []
  field : u.field ≠ []
  method : u.method ∈ [lit "PUT", lit "PATCH", lit "POST"]

/-- What an action that has passed the checks can rely on, by its type. -/
inductive ActionConfig.Ready (a : ActionConfig) : Prop
  | certSave (type : a.type = actionCertSave)
      (save : CertSaveReady a.toSaveAction)
  | serviceRestart (type : a.type = actionServiceRestart)
      (serviceName : a.serviceName.trimSpace ≠ [])
  | exec (type : a.type = actionExec) (command : a.command.trimSpace ≠ [])
  | upload (type : a.type = actionFortiOSUpload) (cfg : FortiOSConfig)
      (fortiOS : a.fortiOS = some cfg) (ready : FortiOSReady cfg)
  | replace (type : a.type = actionFortiOSProfileCertReplace)
      (cfg : FortiOSConfig) (fortiOS : a.fortiOS = some cfg)
      (ready : FortiOSReady cfg) (some : a.profileUpdates ≠ [])
      (updates : ∀ u ∈ a.profileUpdates, UpdateReady u)
  | adminUpdate (type : a.type = actionFortiOSAdminServerCertUpdate)
      (cfg : FortiOSConfig) (fortiOS : a.fortiOS = some cfg)
      (ready : FortiOSReady cfg)

/-- The type says which of the cases it is. -/
theorem ActionConfig.Ready.certSaveReady {a : ActionConfig} (h : a.Ready)
    (htype : a.type = actionCertSave) : CertSaveReady a.toSaveAction := by
  cases h with
  | certSave _ save => exact save
  | serviceRestart type => exact absurd (htype.symm.trans type) (by decide)
  | exec type => exact absurd (htype.symm.trans type) (by decide)
  | upload type => exact absurd (htype.symm.trans type) (by decide)
  | replace type => exact absurd (htype.symm.trans type) (by decide)
  | adminUpdate type => exact absurd (htype.symm.trans type) (by decide)

theorem forall_mem_zipIdx {α : Type} {P : α → Prop} {l : List α} :
    (∀ x ∈ l.zipIdx, P x.1) ↔ ∀ a ∈ l, P a := by
  conv => rhs; rw [← List.zipIdx_map_fst 0 l]
  rw [List.forall_mem_map]

theorem checkCombined_eq_ok {k : Nat} {cf : CombinedFile} :
    checkCombined k cf = .ok () ↔ CombinedReady cf := by
  unfold checkCombined
  rw [refuseIf_bind_eq_ok, refuseIf_bind_eq_ok, Prog.except_forM_eq_ok]
  simp only [refuseIf_eq_ok, Decidable.not_not]
  exact ⟨fun h => ⟨h.1, h.2.1, h.2.2⟩, fun h => ⟨h.1, h.2, h.3⟩⟩

theorem checkCertSave_eq_ok {a : ActionConfig} :
    checkCertSave a = .ok () ↔ CertSaveReady a.toSaveAction := by
  have houtput : ¬(a.certFile = [] ∧ a.chainFile = [] ∧ a.fullchainFile = [] ∧
      a.keyFile = [] ∧ a.pkcs12File = [] ∧ a.combinedFiles = []) ↔
        a.filenames.any (· ≠ []) = true ∨ a.combinedFiles ≠ [] := by
    simp only [SaveAction.filenames, List.any_cons, List.any_nil,
      Bool.or_false, Bool.or_eq_true, decide_eq_true_eq]
    tauto
  unfold checkCertSave
  rw [refuseIf_bind_eq_ok, refuseIf_bind_eq_ok, Prog.except_forM_eq_ok, houtput]
  simp only [checkCombined_eq_ok]
  rw [forall_mem_zipIdx]
  exact ⟨fun h => ⟨h.1, h.2.1, h.2.2⟩, fun h => ⟨h.1, h.2, h.3⟩⟩

theorem validateFortiOSConfig_ready {cfg cfg' : FortiOSConfig}
    (h : validateFortiOSConfig cfg = .ok cfg') : FortiOSReady cfg' := by
  unfold validateFortiOSConfig at h
  rw [refuseIf_bind_eq_ok, refuseIf_bind_eq_ok, refuseIf_bind_eq_ok] at h
  obtain ⟨hhost, htoken, hname, h⟩ := h
  dsimp only at h
  rw [refuseIf_bind_eq_ok] at h
  obtain ⟨hscope, h⟩ := h
  obtain rfl := Except.ok.inj h
  refine ⟨hhost, htoken, hname, ?_⟩
  by_contra hneither
  exact hscope (not_or.mp hneither)

theorem requireFortiOS_ready {a : ActionConfig} {cfg : FortiOSConfig}
    (h : requireFortiOS a = .ok cfg) : FortiOSReady cfg := by
  unfold requireFortiOS at h
  cases hfortiOS : a.fortiOS with
  | none =>
      rw [hfortiOS] at h
      cases h
  | some given =>
      rw [hfortiOS] at h
      exact validateFortiOSConfig_ready h

section Upper

variable {upper : Nat → Nat}

theorem completeUpdate_ready {k : Nat} {u u' : FortiOSProfileUpdate}
    (h : completeUpdate upper k u = .ok u') : UpdateReady u' := by
  unfold completeUpdate at h
  dsimp only at h
  rw [refuseIf_bind_eq_ok, refuseIf_bind_eq_ok, refuseIf_bind_eq_ok] at h
  obtain ⟨hpath, hfield, hmethod, h⟩ := h
  obtain rfl := Except.ok.inj h
  exact ⟨hpath, hfield, Decidable.not_not.mp hmethod⟩

/-- **What `defaults` does**, by the type of the action. -/
theorem defaults_cases {a a' : ActionConfig} (h : a.defaults upper = .ok a') :
    (a.type = actionCertSave ∧ CertSaveReady a.toSaveAction ∧ a' = a) ∨
    (a.type = actionServiceRestart ∧ a.serviceName.trimSpace ≠ [] ∧ a' = a) ∨
    (a.type = actionExec ∧ a.command.trimSpace ≠ [] ∧ a' = a) ∨
    ((a.type = actionFortiOSUpload ∨
        a.type = actionFortiOSAdminServerCertUpdate) ∧
      ∃ cfg, requireFortiOS a = .ok cfg ∧ a' = { a with fortiOS := some cfg }) ∨
    (a.type = actionFortiOSProfileCertReplace ∧
      ∃ cfg updates, requireFortiOS a = .ok cfg ∧ a.profileUpdates ≠ [] ∧
        (a.profileUpdates.zipIdx.mapM fun x =>
          completeUpdate upper x.2 x.1) = .ok updates ∧
        a' = { a with fortiOS := some cfg, profileUpdates := updates }) := by
  unfold ActionConfig.defaults at h
  split at h
  · next htype =>
    obtain ⟨_, hcheck, h⟩ := Prog.except_bind_eq_ok.mp h
    exact .inl ⟨htype, checkCertSave_eq_ok.mp hcheck, (Except.ok.inj h).symm⟩
  split at h
  · next htype =>
    obtain ⟨hname, h⟩ := refuseIf_bind_eq_ok.mp h
    exact .inr (.inl ⟨htype, hname, (Except.ok.inj h).symm⟩)
  split at h
  · next htype =>
    obtain ⟨hcommand, h⟩ := refuseIf_bind_eq_ok.mp h
    exact .inr (.inr (.inl ⟨htype, hcommand, (Except.ok.inj h).symm⟩))
  split at h
  · next htype =>
    obtain ⟨cfg, hcfg, h⟩ := Prog.except_bind_eq_ok.mp h
    exact .inr (.inr (.inr (.inl ⟨.inl htype, cfg, hcfg,
      (Except.ok.inj h).symm⟩)))
  split at h
  · next htype =>
    obtain ⟨cfg, hcfg, h⟩ := Prog.except_bind_eq_ok.mp h
    obtain ⟨hsome, h⟩ := refuseIf_bind_eq_ok.mp h
    obtain ⟨updates, hupdates, h⟩ := Prog.except_bind_eq_ok.mp h
    exact .inr (.inr (.inr (.inr ⟨htype, cfg, updates, hcfg, hsome, hupdates,
      (Except.ok.inj h).symm⟩)))
  split at h
  · next htype =>
    obtain ⟨cfg, hcfg, h⟩ := Prog.except_bind_eq_ok.mp h
    exact .inr (.inr (.inr (.inl ⟨.inr htype, cfg, hcfg,
      (Except.ok.inj h).symm⟩)))
  · cases h

/-- **The checks of an action** establish what its run relies on. -/
theorem defaults_ready {a a' : ActionConfig} (h : a.defaults upper = .ok a') :
    a'.Ready := by
  rcases defaults_cases h with ⟨htype, hsave, rfl⟩ | ⟨htype, hname, rfl⟩ |
    ⟨htype, hcommand, rfl⟩ | ⟨htype, cfg, hcfg, rfl⟩ |
    ⟨htype, cfg, updates, hcfg, hsome, hupdates, rfl⟩
  · exact .certSave htype hsave
  · exact .serviceRestart htype hname
  · exact .exec htype hcommand
  · rcases htype with htype | htype
    · exact .upload htype cfg rfl (requireFortiOS_ready hcfg)
    · exact .adminUpdate htype cfg rfl (requireFortiOS_ready hcfg)
  · refine .replace htype cfg rfl (requireFortiOS_ready hcfg) ?_ fun u hu => ?_
    · rintro (hnone : updates = [])
      rw [Prog.except_mapM_eq_ok, hnone, List.forall₂_nil_right_iff,
        List.zipIdx_eq_nil_iff] at hupdates
      exact hsome hupdates
    · obtain ⟨x, -, hx⟩ := Prog.except_mapM_mem hupdates u hu
      exact completeUpdate_ready hx

/-- A `cert_save` action that is accepted is run as it was written. -/
theorem defaults_certSave {a a' : ActionConfig} (h : a.defaults upper = .ok a')
    (htype : a.type = actionCertSave) : a' = a := by
  unfold ActionConfig.defaults at h
  rw [if_pos htype] at h
  obtain ⟨_, -, h⟩ := Prog.except_bind_eq_ok.mp h
  exact (Except.ok.inj h).symm

theorem completeTask_ready {names : List GoString} {i : Nat} {t t' : TaskConfig}
    (h : completeTask upper names i t = .ok t') :
    ∀ a ∈ t'.actions, a.Ready := by
  unfold completeTask at h
  rw [refuseIf_bind_eq_ok, refuseIf_bind_eq_ok, refuseIf_bind_eq_ok] at h
  obtain ⟨-, -, -, h⟩ := h
  obtain ⟨actions, hactions, h⟩ := Prog.except_bind_eq_ok.mp h
  obtain rfl := Except.ok.inj h
  intro a ha
  obtain ⟨x, -, hx⟩ := Prog.except_mapM_mem hactions a ha
  exact defaults_ready (Prog.mapError_eq_ok.mp hx)

/-- A task that is returned is one of the tasks, completed. -/
theorem completeTasks_mem :
    ∀ (ts ts' : List TaskConfig) (names : List GoString) (i : Nat),
      completeTasks upper names i ts = .ok ts' →
        ∀ t' ∈ ts', ∃ t ∈ ts, ∃ names i,
          completeTask upper names i t = .ok t' := by
  intro ts
  induction ts with
  | nil =>
      intro ts' names i h
      obtain rfl := Except.ok.inj h
      simp
  | cons t ts ih =>
      intro ts' names i h
      obtain ⟨t', ht', h⟩ := Prog.except_bind_eq_ok.mp h
      obtain ⟨rest, hrest, h⟩ := Prog.except_bind_eq_ok.mp h
      obtain rfl := Except.ok.inj h
      rw [List.forall_mem_cons]
      refine ⟨⟨t, List.mem_cons_self, names, i, ht'⟩, fun u' hu' => ?_⟩
      obtain ⟨u, hu, hcompleted⟩ := ih rest _ _ hrest u' hu'
      exact ⟨u, List.mem_cons_of_mem t hu, hcompleted⟩

theorem validate_mem {c c' : WorkerConfig} (h : c.validate upper = .ok c') :
    ∀ t' ∈ c'.tasks, ∃ t ∈ c.tasks, ∃ names i,
      completeTask upper names i t = .ok t' := by
  unfold WorkerConfig.validate at h
  obtain ⟨-, h⟩ := refuseIf_bind_eq_ok.mp h
  obtain ⟨tasks, htasks, h⟩ := Prog.except_bind_eq_ok.mp h
  obtain rfl := Except.ok.inj h
  exact completeTasks_mem _ _ _ _ htasks

/-- **Every action of an accepted configuration** is ready. -/
theorem validate_ready {c c' : WorkerConfig} (h : c.validate upper = .ok c') :
    ∀ t ∈ c'.tasks, ∀ a ∈ t.actions, a.Ready := by
  intro t ht
  obtain ⟨_, -, _, _, hcompleted⟩ := validate_mem h t ht
  exact completeTask_ready hcompleted

end Upper

/-! ## What is accepted -/

def actionTypes : List GoString :=
  [actionCertSave, actionServiceRestart, actionExec, actionFortiOSUpload,
    actionFortiOSProfileCertReplace, actionFortiOSAdminServerCertUpdate]

/-- The types that need the settings of a FortiGate. -/
def fortiOSTypes : List GoString :=
  [actionFortiOSUpload, actionFortiOSProfileCertReplace,
    actionFortiOSAdminServerCertUpdate]

/-- Settings that `validateFortiOSConfig` accepts. -/
@[mk_iff]
structure FortiOSAccepted (cfg : FortiOSConfig) : Prop where
  host : cfg.host.trimSpace ≠ []
  accessToken : cfg.accessToken.trimSpace ≠ []
  certName : cfg.certName.trimSpace ≠ []
  scope : cfg.scope.trimSpace ∈ [[], lit "vdom", lit "global"]

/-- An update that can be completed. -/
@[mk_iff]
structure UpdateAccepted (upper : Nat → Nat) (u : FortiOSProfileUpdate) :
    Prop where
  path : u.path.trimSpace ≠ []
  field : u.field.trimSpace ≠ []
  method : toUpper upper u.method.trimSpace ∈
    [[], lit "PUT", lit "PATCH", lit "POST"]

/-- An action that `defaults` accepts. -/
@[mk_iff]
structure ActionConfig.Accepted (upper : Nat → Nat) (a : ActionConfig) :
    Prop where
  known : a.type ∈ actionTypes
  certSave : a.type = actionCertSave → CertSaveReady a.toSaveAction
  serviceName : a.type = actionServiceRestart → a.serviceName.trimSpace ≠ []
  command : a.type = actionExec → a.command.trimSpace ≠ []
  fortiOS : a.type ∈ fortiOSTypes →
    ∃ cfg, a.fortiOS = some cfg ∧ FortiOSAccepted cfg
  updates : a.type = actionFortiOSProfileCertReplace →
    a.profileUpdates ≠ [] ∧ ∀ u ∈ a.profileUpdates, UpdateAccepted upper u

/-- A task that `Validate` accepts when no other task has its name. -/
@[mk_iff]
structure TaskConfig.Accepted (upper : Nat → Nat) (t : TaskConfig) : Prop where
  name : t.name.trimSpace ≠ []
  actions : t.actions ≠ []
  accepted : ∀ a ∈ t.actions, a.Accepted upper

theorem exists_refuseIf_bind {ε α : Type} {p : Prop} [Decidable p] {err : ε}
    {x : Except ε α} :
    (∃ a, (refuseIf p err >>= fun _ => x) = .ok a) ↔ ¬p ∧ ∃ a, x = .ok a := by
  simp only [refuseIf_bind_eq_ok, exists_and_left]

theorem exists_bind {ε α β : Type} {x : Except ε α} {f : α → Except ε β} :
    (∃ b, (x >>= f) = .ok b) ↔ ∃ a, x = .ok a ∧ ∃ b, f a = .ok b := by
  simp only [Prog.except_bind_eq_ok]
  exact ⟨fun ⟨b, a, hx, hf⟩ => ⟨a, hx, b, hf⟩,
    fun ⟨a, hx, b, hf⟩ => ⟨b, a, hx, hf⟩⟩

/-- What is returned is built from what has been computed. -/
theorem exists_bind_pure {ε α β : Type} {x : Except ε α} {f : α → β} :
    (∃ b, (x >>= fun a => pure (f a)) = .ok b) ↔ ∃ a, x = .ok a := by
  simp [exists_bind, pure, Except.pure]

theorem validateFortiOSConfig_isOk {cfg : FortiOSConfig} :
    (∃ cfg', validateFortiOSConfig cfg = .ok cfg') ↔ FortiOSAccepted cfg := by
  have hscope : ¬((if cfg.scope.trimSpace = [] then lit "vdom"
      else cfg.scope.trimSpace) ≠ lit "vdom" ∧
      (if cfg.scope.trimSpace = [] then lit "vdom"
        else cfg.scope.trimSpace) ≠ lit "global") ↔
      cfg.scope.trimSpace ∈ [[], lit "vdom", lit "global"] := by
    by_cases hempty : cfg.scope.trimSpace = []
    · simp [hempty]
    · rw [if_neg hempty]
      simp only [List.mem_cons, hempty, List.not_mem_nil, false_or, or_false]
      tauto
  unfold validateFortiOSConfig
  dsimp only
  rw [exists_refuseIf_bind, exists_refuseIf_bind, exists_refuseIf_bind,
    exists_refuseIf_bind, hscope]
  constructor
  · rintro ⟨hhost, htoken, hname, hscope, -⟩
    exact ⟨hhost, htoken, hname, hscope⟩
  · intro h
    exact ⟨h.host, h.accessToken, h.certName, h.scope, _, rfl⟩

theorem requireFortiOS_isOk {a : ActionConfig} :
    (∃ cfg, requireFortiOS a = .ok cfg) ↔
      ∃ cfg, a.fortiOS = some cfg ∧ FortiOSAccepted cfg := by
  unfold requireFortiOS
  cases hfortiOS : a.fortiOS with
  | none => simp
  | some cfg => simp [validateFortiOSConfig_isOk]

section Accepted

variable {upper : Nat → Nat}

theorem completeUpdate_isOk {k : Nat} {u : FortiOSProfileUpdate} :
    (∃ u', completeUpdate upper k u = .ok u') ↔ UpdateAccepted upper u := by
  have hmethod : ¬(if toUpper upper u.method.trimSpace = [] then lit "PUT"
      else toUpper upper u.method.trimSpace) ∉
        [lit "PUT", lit "PATCH", lit "POST"] ↔
      toUpper upper u.method.trimSpace ∈
        [[], lit "PUT", lit "PATCH", lit "POST"] := by
    by_cases hempty : toUpper upper u.method.trimSpace = []
    · simp [hempty]
    · rw [if_neg hempty]
      simp only [Decidable.not_not, List.mem_cons, hempty, false_or]
  unfold completeUpdate
  dsimp only
  rw [exists_refuseIf_bind, exists_refuseIf_bind, exists_refuseIf_bind, hmethod]
  constructor
  · rintro ⟨hpath, hfield, hmethod, -⟩
    exact ⟨hpath, hfield, hmethod⟩
  · intro h
    exact ⟨h.path, h.field, h.method, _, rfl⟩

theorem completeUpdates_isOk {us : List FortiOSProfileUpdate} :
    (∃ us', (us.zipIdx.mapM fun x => completeUpdate upper x.2 x.1) = .ok us') ↔
      ∀ u ∈ us, UpdateAccepted upper u := by
  rw [Prog.except_exists_mapM]
  simp only [completeUpdate_isOk]
  exact forall_mem_zipIdx

section Types

variable {a : ActionConfig}

theorem accepted_certSave (htype : a.type = actionCertSave) :
    a.Accepted upper ↔ CertSaveReady a.toSaveAction := by
  rw [ActionConfig.accepted_iff]
  simp +decide [htype]

theorem accepted_serviceRestart (htype : a.type = actionServiceRestart) :
    a.Accepted upper ↔ a.serviceName.trimSpace ≠ [] := by
  rw [ActionConfig.accepted_iff]
  simp +decide [htype]

theorem accepted_exec (htype : a.type = actionExec) :
    a.Accepted upper ↔ a.command.trimSpace ≠ [] := by
  rw [ActionConfig.accepted_iff]
  simp +decide [htype]

theorem accepted_replace (htype : a.type = actionFortiOSProfileCertReplace) :
    a.Accepted upper ↔
      (∃ cfg, a.fortiOS = some cfg ∧ FortiOSAccepted cfg) ∧
        a.profileUpdates ≠ [] ∧
          ∀ u ∈ a.profileUpdates, UpdateAccepted upper u := by
  rw [ActionConfig.accepted_iff]
  simp +decide [htype]

/-- The two types that need nothing but the settings. -/
theorem accepted_fortiOS (htype : a.type = actionFortiOSUpload ∨
      a.type = actionFortiOSAdminServerCertUpdate) :
    a.Accepted upper ↔ ∃ cfg, a.fortiOS = some cfg ∧ FortiOSAccepted cfg := by
  rw [ActionConfig.accepted_iff]
  rcases htype with htype | htype <;> simp +decide [htype]

/-- **An action passes `defaults`** when it has what its type needs. -/
theorem defaults_isOk :
    (∃ a', a.defaults upper = .ok a') ↔ a.Accepted upper := by
  unfold ActionConfig.defaults
  split
  · next htype =>
    rw [accepted_certSave htype, exists_bind_pure, ← checkCertSave_eq_ok]
    exact ⟨fun ⟨_, h⟩ => h, fun h => ⟨_, h⟩⟩
  split
  · next htype =>
    rw [accepted_serviceRestart htype, exists_refuseIf_bind]
    simp [pure, Except.pure]
  split
  · next htype =>
    rw [accepted_exec htype, exists_refuseIf_bind]
    simp [pure, Except.pure]
  split
  · next htype =>
    rw [accepted_fortiOS (.inl htype), exists_bind_pure, requireFortiOS_isOk]
  split
  · next htype =>
    rw [accepted_replace htype, ← requireFortiOS_isOk, ← completeUpdates_isOk,
      exists_bind]
    simp only [exists_refuseIf_bind, exists_bind_pure, exists_and_right]
  split
  · next htype =>
    rw [accepted_fortiOS (.inr htype), exists_bind_pure, requireFortiOS_isOk]
  · next h₁ h₂ h₃ h₄ h₅ h₆ =>
    refine ⟨fun h => ?_, fun h => ?_⟩
    · obtain ⟨_, ⟨⟩⟩ := h
    · have hknown := h.known
      simp [actionTypes, h₁, h₂, h₃, h₄, h₅, h₆] at hknown

end Types

theorem completeTask_isOk {names : List GoString} {i : Nat} {t : TaskConfig} :
    (∃ t', completeTask upper names i t = .ok t') ↔
      t.name ∉ names ∧ t.Accepted upper := by
  have hactions : (∃ actions, (t.actions.zipIdx.mapM fun x =>
        (x.1.defaults upper).mapError (ConfigError.action t.name x.2)) =
          .ok actions) ↔
      ∀ a ∈ t.actions, a.Accepted upper := by
    rw [Prog.except_exists_mapM]
    simp only [Prog.mapError_eq_ok, defaults_isOk]
    exact forall_mem_zipIdx
  unfold completeTask
  rw [exists_refuseIf_bind, exists_refuseIf_bind, exists_refuseIf_bind,
    exists_bind_pure, hactions, TaskConfig.accepted_iff]
  tauto

/-- The names seen before and those of the tasks are all different. -/
theorem completeTasks_isOk : ∀ (ts : List TaskConfig) (names : List GoString)
    (i : Nat),
      (∃ ts', completeTasks upper names i ts = .ok ts') ↔
        (∀ t ∈ ts, t.name ∉ names) ∧ (ts.map (·.name)).Nodup ∧
          ∀ t ∈ ts, t.Accepted upper := by
  intro ts
  induction ts with
  | nil => simp [completeTasks]
  | cons t ts ih =>
      intro names i
      rw [completeTasks, exists_bind]
      simp only [exists_bind_pure, ih, exists_and_right, completeTask_isOk,
        List.forall_mem_cons, List.map_cons, List.nodup_cons, List.mem_map]
      simp only [List.mem_cons, not_or, not_exists, not_and]
      constructor
      · rintro ⟨⟨hname, haccepted⟩, hnames, hnodup, hrest⟩
        exact ⟨⟨hname, fun u hu => (hnames u hu).2⟩,
          ⟨fun u hu => (hnames u hu).1, hnodup⟩, haccepted, hrest⟩
      · rintro ⟨⟨hname, hnames⟩, ⟨hfirst, hnodup⟩, haccepted, hrest⟩
        exact ⟨⟨hname, haccepted⟩, fun u hu => ⟨hfirst u hu, hnames u hu⟩,
          hnodup, hrest⟩

/-- **What `Validate` accepts**: tasks of different names that are accepted. -/
theorem validate_isOk {c : WorkerConfig} :
    (∃ c', c.validate upper = .ok c') ↔
      c.port ≠ 0 ∧ (c.tasks.map (·.name)).Nodup ∧
        ∀ t ∈ c.tasks, t.Accepted upper := by
  unfold WorkerConfig.validate
  rw [exists_refuseIf_bind, exists_bind_pure, completeTasks_isOk]
  simp

/-! ## What is completed is accepted -/

/-- There is nothing to trim in the words that are filled in, and the methods are
in capitals. -/
theorem filledIn_clean :
    ∀ s ∈ [lit "vdom", lit "global", lit "PUT", lit "PATCH", lit "POST"],
      trimSpace s = s ∧ (s ∈ [lit "PUT", lit "PATCH", lit "POST"] →
        s.all (· < 0x80) = true ∧
        s.map (fun b => if 0x61 ≤ b ∧ b ≤ 0x7A then b - 0x20 else b) = s) := by
  decide +kernel

theorem toUpper_method {method : GoString}
    (h : method ∈ [lit "PUT", lit "PATCH", lit "POST"]) :
    toUpper upper method.trimSpace = method := by
  obtain ⟨htrim, hcapitals⟩ := filledIn_clean method
    (List.mem_cons_of_mem _ (List.mem_cons_of_mem _ h))
  obtain ⟨hascii, hupper⟩ := hcapitals h
  unfold toUpper
  rw [htrim, if_pos hascii]
  exact hupper

theorem FortiOSReady.accepted {cfg : FortiOSConfig} (h : FortiOSReady cfg) :
    FortiOSAccepted cfg := by
  refine ⟨h.host, h.accessToken, h.certName, ?_⟩
  rcases h.scope with hscope | hscope
  · rw [hscope, (filledIn_clean (lit "vdom") (by simp)).1]
    simp
  · rw [hscope, (filledIn_clean (lit "global") (by simp)).1]
    simp

theorem completeUpdate_accepted {k : Nat} {u u' : FortiOSProfileUpdate}
    (h : completeUpdate upper k u = .ok u') : UpdateAccepted upper u' := by
  have hmethod := (completeUpdate_ready h).method
  unfold completeUpdate at h
  dsimp only at h
  rw [refuseIf_bind_eq_ok, refuseIf_bind_eq_ok, refuseIf_bind_eq_ok] at h
  obtain ⟨hpath, hfield, -, h⟩ := h
  obtain rfl := Except.ok.inj h
  refine ⟨by rwa [trimSpace_trimSpace], by rwa [trimSpace_trimSpace], ?_⟩
  rw [toUpper_method hmethod]
  exact List.mem_cons_of_mem _ hmethod

/-- **A completed action** is accepted. -/
theorem defaults_accepted {a a' : ActionConfig}
    (h : a.defaults upper = .ok a') : a'.Accepted upper := by
  rcases defaults_cases h with ⟨htype, hsave, rfl⟩ | ⟨htype, hname, rfl⟩ |
    ⟨htype, hcommand, rfl⟩ | ⟨htype, cfg, hcfg, rfl⟩ |
    ⟨htype, cfg, updates, hcfg, hsome, hupdates, rfl⟩
  · exact (accepted_certSave htype).mpr hsave
  · exact (accepted_serviceRestart htype).mpr hname
  · exact (accepted_exec htype).mpr hcommand
  · exact (accepted_fortiOS (a := { a with fortiOS := some cfg }) htype).mpr
      ⟨cfg, rfl, (requireFortiOS_ready hcfg).accepted⟩
  · refine (accepted_replace (a := { a with
        fortiOS := some cfg, profileUpdates := updates }) htype).mpr
      ⟨⟨cfg, rfl, (requireFortiOS_ready hcfg).accepted⟩, ?_, fun u hu => ?_⟩
    · rintro (hnone : updates = [])
      rw [Prog.except_mapM_eq_ok, hnone, List.forall₂_nil_right_iff,
        List.zipIdx_eq_nil_iff] at hupdates
      exact hsome hupdates
    · obtain ⟨x, -, hx⟩ := Prog.except_mapM_mem hupdates u hu
      exact completeUpdate_accepted hx

theorem completeTask_accepted {names : List GoString} {i : Nat}
    {t t' : TaskConfig} (h : completeTask upper names i t = .ok t') :
    t'.Accepted upper := by
  unfold completeTask at h
  rw [refuseIf_bind_eq_ok, refuseIf_bind_eq_ok, refuseIf_bind_eq_ok] at h
  obtain ⟨hname, -, hsome, h⟩ := h
  obtain ⟨actions, hactions, h⟩ := Prog.except_bind_eq_ok.mp h
  obtain rfl := Except.ok.inj h
  refine ⟨hname, ?_, fun a ha => ?_⟩
  · rintro (hnone : actions = [])
    rw [Prog.except_mapM_eq_ok, hnone, List.forall₂_nil_right_iff,
      List.zipIdx_eq_nil_iff] at hactions
    exact hsome hactions
  · obtain ⟨x, -, hx⟩ := Prog.except_mapM_mem hactions a ha
    exact defaults_accepted (Prog.mapError_eq_ok.mp hx)

/-- **The tasks of a configuration that has passed**, as they were and as they
are now. -/
theorem validate_accepted {c c' : WorkerConfig} (h : c.validate upper = .ok c')
    {t : TaskConfig} (ht : t ∈ c.tasks ∨ t ∈ c'.tasks) : t.Accepted upper := by
  rcases ht with ht | ht
  · exact (validate_isOk.mp ⟨c', h⟩).2.2 t ht
  · obtain ⟨_, -, _, _, hcompleted⟩ := validate_mem h t ht
    exact completeTask_accepted hcompleted

/-- A configuration with a single task passes when its task does. -/
theorem validate_single_isOk {c : WorkerConfig} {t : TaskConfig}
    (hport : c.port ≠ 0) (htasks : c.tasks = [t]) :
    (∃ c', c.validate upper = .ok c') ↔ t.Accepted upper := by
  rw [validate_isOk, htasks]
  simp [hport]

end Accepted

end Hdns.Ports.TaskConfigs

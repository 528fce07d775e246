import Hdns.Ports.Wizard
import Hdns.Verified.YamlPrint

/-!
# The snippet of the task wizard

`printTaskYAML` writes a task line by line, its strings with `%q` and the parts
of a combined file as they are.  Of an action only the fields that its type
needs are written, and optional ones only if they are set.

What is written is a list of one task in YAML.  By the tags of the configuration
types a task is a node in which empty fields are left out, and a node is read as
a task.

## Main results

* `readTasks_node` — a node of tasks is read as the tasks.
* `printTaskYAML_eq` — the snippet of an accepted task is the node of its
  relevant fields, in block style.
* `snippet_reads_back` — the snippet is read as the task.
-/

namespace Hdns.Ports.TaskSnippet

open Hdns.Verified
open Hdns.Verified.GoString
open Hdns.Verified.GoQuote
open Hdns.Verified.Yaml
open Hdns.Ports.Worker
open Hdns.Ports.TaskConfigs
open Hdns.Ports.Wizard

/-! ## The printer -/

/-- `<key>: <text>` on a line of its own, behind `indent` blanks. -/
def line (indent : Nat) (key text : GoString) : GoString :=
  List.replicate indent 0x20 ++ (key ++ lit ": " ++ text ++ [0x0A])

/-- `fmt.Println("<indent><key>:")`. -/
def heading (indent : Nat) (key : GoString) : GoString :=
  List.replicate indent 0x20 ++ (key ++ lit ":" ++ [0x0A])

/-- `if b { fmt.Printf("<indent><key>: %t\n", b) }`. -/
def flag (indent : Nat) (key : GoString) (b : Bool) : GoString :=
  if b then line indent key (lit "true") else []

section Print

variable (wide : Nat → Bool)

/-- `fmt.Printf("<indent><key>: %q\n", s)`. -/
def quoted (indent : Nat) (key s : GoString) : GoString :=
  line indent key (quote wide s)

/-- `fmt.Printf("<indent>- <key>: %q\n", s)`. -/
def item (indent : Nat) (key s : GoString) : GoString :=
  line indent (lit "- " ++ key) (quote wide s)

/-- `if s != "" { fmt.Printf("<indent><key>: %q\n", s) }`. -/
def quotedIfSet (indent : Nat) (key s : GoString) : GoString :=
  if s ≠ [] then quoted wide indent key s else []

def printFortiOSYAML (f : FortiOSConfig) : GoString :=
  heading 8 "fortios" ++
  quoted wide 10 "host" f.host ++
  quoted wide 10 "access_token" f.accessToken ++
  quoted wide 10 "certname" f.certName ++
  quotedIfSet wide 10 "scope" f.scope ++
  flag 10 "tls_insecure" f.tlsInsecure ++
  flag 10 "dry_run" f.dryRun

/-- The body of the loop over `a.CombinedFiles`. -/
def printCombinedFile (cf : CombinedFile) : GoString :=
  item wide 10 "filename" cf.filename ++
  line 12 "parts" (0x5B :: (GoString.join cf.parts ", " ++ [0x5D]))

/-- The body of the loop over `a.ProfileUpdates`. -/
def printUpdate (u : FortiOSProfileUpdate) : GoString :=
  item wide 10 "path" u.path ++
  quotedIfSet wide 12 "mkey" u.mkey ++
  quoted wide 12 "field" u.field ++
  quotedIfSet wide 12 "method" u.method

/-- `switch a.Type`. -/
def printFields (a : ActionConfig) : GoString :=
  if a.type = actionCertSave then
    quoted wide 8 "cert_dir" a.certDir ++
    quotedIfSet wide 8 "cert_file" a.certFile ++
    quotedIfSet wide 8 "chain_file" a.chainFile ++
    quotedIfSet wide 8 "fullchain_file" a.fullchainFile ++
    quotedIfSet wide 8 "key_file" a.keyFile ++
    quotedIfSet wide 8 "pkcs12_file" a.pkcs12File ++
    if a.combinedFiles ≠ [] then
      heading 8 "combined_files" ++
      a.combinedFiles.flatMap (printCombinedFile wide)
    else []
  else if a.type = actionServiceRestart then
    quoted wide 8 "service_name" a.serviceName
  else if a.type = actionExec then quoted wide 8 "command" a.command
  else if a.type = actionFortiOSUpload then
    match a.fortiOS with
    | none => []
    | some f => printFortiOSYAML wide f
  else if a.type = actionFortiOSProfileCertReplace then
    match a.fortiOS with
    | none => []
    | some f =>
        printFortiOSYAML wide f ++
        heading 8 "profile_updates" ++
        a.profileUpdates.flatMap (printUpdate wide)
  else if a.type = actionFortiOSAdminServerCertUpdate then
    match a.fortiOS with
    | none => []
    | some f => printFortiOSYAML wide f
  else []

/-- The body of the loop over `task.Actions`. -/
def printAction (a : ActionConfig) : GoString :=
  item wide 6 "type" a.type ++ printFields wide a

def printTaskYAML (task : TaskConfig) : GoString :=
  item wide 2 "name" task.name ++
  heading 4 "actions" ++
  task.actions.flatMap (printAction wide)

end Print

example : printTaskYAML (fun _ => true)
    ⟨"backup", [{ newAction actionExec with command := "echo \"hi\"" }]⟩ =
      lit "  - name: \"backup\"
    actions:
      - type: \"exec\"
        command: \"echo \\\"hi\\\"\"
" := by decide +kernel

/-! ## The types by their tags -/

def combinedFields (cf : CombinedFile) : List (GoString × Option Node) :=
  [(lit "filename", givenText cf.filename),
    (lit "parts", some (.value (.flow cf.parts)))]

def combinedNode (cf : CombinedFile) : Node := .map (present (combinedFields cf))

def fortiOSFields (f : FortiOSConfig) : List (GoString × Option Node) :=
  [(lit "host", givenText f.host),
    (lit "access_token", givenText f.accessToken),
    (lit "certname", givenText f.certName),
    (lit "scope", givenText f.scope),
    (lit "tls_insecure", givenFlag f.tlsInsecure),
    (lit "dry_run", givenFlag f.dryRun)]

def fortiOSNode (f : FortiOSConfig) : Node := .map (present (fortiOSFields f))

def updateFields (u : FortiOSProfileUpdate) : List (GoString × Option Node) :=
  [(lit "path", givenText u.path),
    (lit "mkey", givenText u.mkey),
    (lit "field", givenText u.field),
    (lit "method", givenText u.method)]

def updateNode (u : FortiOSProfileUpdate) : Node := .map (present (updateFields u))

/-- The fields behind the type. -/
def actionBody (a : ActionConfig) : List (GoString × Option Node) :=
  [(lit "cert_dir", givenText a.certDir),
    (lit "cert_file", givenText a.certFile),
    (lit "chain_file", givenText a.chainFile),
    (lit "fullchain_file", givenText a.fullchainFile),
    (lit "key_file", givenText a.keyFile),
    (lit "pkcs12_file", givenText a.pkcs12File),
    (lit "combined_files", givenList combinedNode a.combinedFiles),
    (lit "service_name", givenText a.serviceName),
    (lit "command", givenText a.command),
    (lit "fortios", a.fortiOS.map fortiOSNode),
    (lit "profile_updates", givenList updateNode a.profileUpdates)]

def actionFields (a : ActionConfig) : List (GoString × Option Node) :=
  (lit "type", givenText a.type) :: actionBody a

def actionNode (a : ActionConfig) : Node := .map (present (actionFields a))

def taskFields (t : TaskConfig) : List (GoString × Option Node) :=
  [(lit "name", givenText t.name),
    (lit "actions", givenList actionNode t.actions)]

def taskNode (t : TaskConfig) : Node := .map (present (taskFields t))

/-! ## Reading by the tags -/

def readCombinedFile (n : Node) : Option CombinedFile := do
  let es ← n.fields
  let filename ← field Node.text [] es "filename"
  let parts ← field (Node.list Node.text) [] es "parts"
  pure { filename, parts }

def readFortiOS (n : Node) : Option FortiOSConfig := do
  let es ← n.fields
  let host ← field Node.text [] es "host"
  let accessToken ← field Node.text [] es "access_token"
  let certName ← field Node.text [] es "certname"
  let scope ← field Node.text [] es "scope"
  let tlsInsecure ← field Node.bool false es "tls_insecure"
  let dryRun ← field Node.bool false es "dry_run"
  pure { host, accessToken, certName, scope, tlsInsecure, dryRun }

def readUpdate (n : Node) : Option FortiOSProfileUpdate := do
  let es ← n.fields
  let path ← field Node.text [] es "path"
  let mkey ← field Node.text [] es "mkey"
  let updated ← field Node.text [] es "field"
  let method ← field Node.text [] es "method"
  pure { path, mkey, field := updated, method }

def readAction (n : Node) : Option ActionConfig := do
  let es ← n.fields
  let type ← field Node.text [] es "type"
  let certDir ← field Node.text [] es "cert_dir"
  let certFile ← field Node.text [] es "cert_file"
  let chainFile ← field Node.text [] es "chain_file"
  let fullchainFile ← field Node.text [] es "fullchain_file"
  let keyFile ← field Node.text [] es "key_file"
  let pkcs12File ← field Node.text [] es "pkcs12_file"
  let combinedFiles ← field (Node.list readCombinedFile) [] es "combined_files"
  let serviceName ← field Node.text [] es "service_name"
  let command ← field Node.text [] es "command"
  let fortiOS ← field (fun n => (readFortiOS n).map some) none es "fortios"
  let profileUpdates ← field (Node.list readUpdate) [] es "profile_updates"
  pure { type, certDir, certFile, chainFile, fullchainFile, keyFile, pkcs12File,
         combinedFiles, serviceName, command, fortiOS, profileUpdates }

def readTask (n : Node) : Option TaskConfig := do
  let es ← n.fields
  let name ← field Node.text [] es "name"
  let actions ← field (Node.list readAction) [] es "actions"
  pure { name, actions }

/-- The tasks of a text: `yaml.Unmarshal` into `[]TaskConfig`. -/
def readTasks (text : GoString) : Option (List TaskConfig) :=
  (load text).bind (Node.list readTask)

/-! ## Reading back -/

def combinedTags : List GoString := ["filename", "parts"]

def fortiOSTags : List GoString :=
  ["host", "access_token", "certname", "scope", "tls_insecure", "dry_run"]

def updateTags : List GoString := ["path", "mkey", "field", "method"]

def actionTags : List GoString :=
  ["type", "cert_dir", "cert_file", "chain_file", "fullchain_file", "key_file",
    "pkcs12_file", "combined_files", "service_name", "command", "fortios",
    "profile_updates"]

def taskTags : List GoString := ["name", "actions"]

/-- The tags of all types are different keys, and the parts of a combined file
are words that YAML takes for strings. -/
theorem tags_keys :
    Keys (combinedTags ++ (fortiOSTags ++ (updateTags ++
      (actionTags ++ taskTags)))) ∧
    ∀ p ∈ validParts, IsWord p ∧ (Scalar.plain p).text = some p := by
  decide +kernel

theorem keys_combined (cf : CombinedFile) :
    Keys ((combinedFields cf).map Prod.fst) :=
  tags_keys.1.of_append.1

theorem keys_fortiOS (f : FortiOSConfig) :
    Keys ((fortiOSFields f).map Prod.fst) :=
  tags_keys.1.of_append.2.of_append.1

theorem keys_update (u : FortiOSProfileUpdate) :
    Keys ((updateFields u).map Prod.fst) :=
  tags_keys.1.of_append.2.of_append.2.of_append.1

theorem keys_action (a : ActionConfig) :
    Keys ((actionFields a).map Prod.fst) :=
  tags_keys.1.of_append.2.of_append.2.of_append.2.of_append.1

theorem keys_task (t : TaskConfig) : Keys ((taskFields t).map Prod.fst) :=
  tags_keys.1.of_append.2.of_append.2.of_append.2.of_append.2

theorem readCombinedFile_node {cf : CombinedFile}
    (h : ∀ p ∈ cf.parts, p ∈ validParts) :
    readCombinedFile (combinedNode cf) = some cf := by
  have hparts : ∀ ps : List GoString, (∀ p ∈ ps, p ∈ validParts) →
      (ps.map fun p => Node.value (.scalar (.plain p))).mapM Node.text =
        some ps := by
    intro ps
    induction ps with
    | nil => exact fun _ => rfl
    | cons p ps ih =>
        intro hps
        rw [List.forall_mem_cons] at hps
        simp [Node.text, (tags_keys.2 p hps.1).2, ih hps.2]
  have hkeys := keys_combined cf
  have hfilename : field Node.text [] (present (combinedFields cf)) "filename" =
      some cf.filename := field_text hkeys (List.mem_of_getElem? (i := 0) rfl)
  have hlist : field (Node.list Node.text) [] (present (combinedFields cf))
      "parts" = some cf.parts :=
    field_present hkeys (List.mem_of_getElem? (i := 1) rfl) (hparts cf.parts h)
  exact bind_eq_some rfl <| bind_eq_some hfilename <| bind_eq_some hlist rfl

theorem readFortiOS_node (f : FortiOSConfig) :
    readFortiOS (fortiOSNode f) = some f := by
  have hkeys := keys_fortiOS f
  have hhost : field Node.text [] _ "host" = some f.host :=
    field_text hkeys (List.mem_of_getElem? (i := 0) rfl)
  have htoken : field Node.text [] _ "access_token" = some f.accessToken :=
    field_text hkeys (List.mem_of_getElem? (i := 1) rfl)
  have hname : field Node.text [] _ "certname" = some f.certName :=
    field_text hkeys (List.mem_of_getElem? (i := 2) rfl)
  have hscope : field Node.text [] _ "scope" = some f.scope :=
    field_text hkeys (List.mem_of_getElem? (i := 3) rfl)
  have hinsecure : field Node.bool false _ "tls_insecure" = some f.tlsInsecure :=
    field_flag hkeys (List.mem_of_getElem? (i := 4) rfl)
  have hdryRun : field Node.bool false _ "dry_run" = some f.dryRun :=
    field_flag hkeys (List.mem_of_getElem? (i := 5) rfl)
  exact bind_eq_some rfl <| bind_eq_some hhost <| bind_eq_some htoken <|
    bind_eq_some hname <| bind_eq_some hscope <| bind_eq_some hinsecure <|
    bind_eq_some hdryRun rfl

theorem readUpdate_node (u : FortiOSProfileUpdate) :
    readUpdate (updateNode u) = some u := by
  have hkeys := keys_update u
  have hpath : field Node.text [] _ "path" = some u.path :=
    field_text hkeys (List.mem_of_getElem? (i := 0) rfl)
  have hmkey : field Node.text [] _ "mkey" = some u.mkey :=
    field_text hkeys (List.mem_of_getElem? (i := 1) rfl)
  have hfield : field Node.text [] _ "field" = some u.field :=
    field_text hkeys (List.mem_of_getElem? (i := 2) rfl)
  have hmethod : field Node.text [] _ "method" = some u.method :=
    field_text hkeys (List.mem_of_getElem? (i := 3) rfl)
  exact bind_eq_some rfl <| bind_eq_some hpath <| bind_eq_some hmkey <|
    bind_eq_some hfield <| bind_eq_some hmethod rfl

/-- An action whose combined files name known parts. -/
def KnownParts (a : ActionConfig) : Prop :=
  ∀ cf ∈ a.combinedFiles, ∀ p ∈ cf.parts, p ∈ validParts

theorem readAction_node {a : ActionConfig} (h : KnownParts a) :
    readAction (actionNode a) = some a := by
  have hkeys := keys_action a
  have htype : field Node.text [] _ "type" = some a.type :=
    field_text hkeys (List.mem_of_getElem? (i := 0) rfl)
  have hdir : field Node.text [] _ "cert_dir" = some a.certDir :=
    field_text hkeys (List.mem_of_getElem? (i := 1) rfl)
  have hcert : field Node.text [] _ "cert_file" = some a.certFile :=
    field_text hkeys (List.mem_of_getElem? (i := 2) rfl)
  have hchain : field Node.text [] _ "chain_file" = some a.chainFile :=
    field_text hkeys (List.mem_of_getElem? (i := 3) rfl)
  have hfullchain : field Node.text [] _ "fullchain_file" =
      some a.fullchainFile :=
    field_text hkeys (List.mem_of_getElem? (i := 4) rfl)
  have hkey : field Node.text [] _ "key_file" = some a.keyFile :=
    field_text hkeys (List.mem_of_getElem? (i := 5) rfl)
  have hpkcs12 : field Node.text [] _ "pkcs12_file" = some a.pkcs12File :=
    field_text hkeys (List.mem_of_getElem? (i := 6) rfl)
  have hcombined : field (Node.list readCombinedFile) [] _ "combined_files" =
      some a.combinedFiles :=
    field_list hkeys (fun cf hcf => readCombinedFile_node (h cf hcf))
      (List.mem_of_getElem? (i := 7) rfl)
  have hservice : field Node.text [] _ "service_name" = some a.serviceName :=
    field_text hkeys (List.mem_of_getElem? (i := 8) rfl)
  have hcommand : field Node.text [] _ "command" = some a.command :=
    field_text hkeys (List.mem_of_getElem? (i := 9) rfl)
  have hread : (a.fortiOS.map fortiOSNode).elim (some none)
      (fun n => (readFortiOS n).map some) = some a.fortiOS := by
    cases a.fortiOS with
    | none => rfl
    | some f => simp [readFortiOS_node]
  have hfortiOS : field (fun n => (readFortiOS n).map some) none _ "fortios" =
      some a.fortiOS :=
    field_present hkeys (List.mem_of_getElem? (i := 10) rfl) hread
  have hupdates : field (Node.list readUpdate) [] _ "profile_updates" =
      some a.profileUpdates :=
    field_list hkeys (fun u _ => readUpdate_node u)
      (List.mem_of_getElem? (i := 11) rfl)
  exact bind_eq_some rfl <| bind_eq_some htype <| bind_eq_some hdir <|
    bind_eq_some hcert <| bind_eq_some hchain <| bind_eq_some hfullchain <|
    bind_eq_some hkey <| bind_eq_some hpkcs12 <| bind_eq_some hcombined <|
    bind_eq_some hservice <| bind_eq_some hcommand <| bind_eq_some hfortiOS <|
    bind_eq_some hupdates rfl

theorem readTask_node {t : TaskConfig} (h : ∀ a ∈ t.actions, KnownParts a) :
    readTask (taskNode t) = some t := by
  have hkeys := keys_task t
  have hname : field Node.text [] _ "name" = some t.name :=
    field_text hkeys (List.mem_of_getElem? (i := 0) rfl)
  have hactions : field (Node.list readAction) [] _ "actions" =
      some t.actions :=
    field_list hkeys (fun a ha => readAction_node (h a ha))
      (List.mem_of_getElem? (i := 1) rfl)
  exact bind_eq_some rfl <| bind_eq_some hname <| bind_eq_some hactions rfl

/-! ## The relevant fields -/

/-- An action with the fields that its type needs; the others are empty. -/
def relevantAction (a : ActionConfig) : ActionConfig :=
  if a.type = actionCertSave then
    { newAction a.type with toSaveAction := a.toSaveAction }
  else if a.type = actionServiceRestart then
    { newAction a.type with serviceName := a.serviceName }
  else if a.type = actionExec then
    { newAction a.type with command := a.command }
  else if a.type = actionFortiOSProfileCertReplace then
    { newAction a.type with
      fortiOS := a.fortiOS, profileUpdates := a.profileUpdates }
  else if a.type ∈ fortiOSTypes then { newAction a.type with fortiOS := a.fortiOS }
  else newAction a.type

@[simp] theorem relevantAction_type (a : ActionConfig) :
    (relevantAction a).type = a.type := by
  unfold relevantAction
  split_ifs <;> rfl

theorem mem_relevant_combined {a : ActionConfig} {cf : CombinedFile}
    (h : cf ∈ (relevantAction a).combinedFiles) :
    a.type = actionCertSave ∧ cf ∈ a.combinedFiles := by
  unfold relevantAction at h
  split_ifs at h with hsave
  · exact ⟨hsave, h⟩
  all_goals cases h

theorem relevant_fortiOS {a : ActionConfig} {f : FortiOSConfig}
    (h : (relevantAction a).fortiOS = some f) :
    a.type ∈ fortiOSTypes ∧ a.fortiOS = some f := by
  unfold relevantAction at h
  split_ifs at h with _ _ _ hreplace htypes
  on_goal 4 => exact ⟨by simp [fortiOSTypes, hreplace], h⟩
  on_goal 4 => exact ⟨htypes, h⟩
  all_goals cases h

theorem mem_relevant_updates {a : ActionConfig} {u : FortiOSProfileUpdate}
    (h : u ∈ (relevantAction a).profileUpdates) :
    a.type = actionFortiOSProfileCertReplace ∧ u ∈ a.profileUpdates := by
  unfold relevantAction at h
  split_ifs at h with _ _ _ hreplace
  on_goal 4 => exact ⟨hreplace, h⟩
  all_goals cases h

/-- A task with the fields that the types of its actions need. -/
def relevant (t : TaskConfig) : TaskConfig :=
  { t with actions := t.actions.map relevantAction }

/-! ## The strings of a task -/

def combinedStrings (cf : CombinedFile) : List GoString := cf.filename :: cf.parts

def fortiOSStrings (f : FortiOSConfig) : List GoString :=
  [f.host, f.accessToken, f.certName, f.scope]

def updateStrings (u : FortiOSProfileUpdate) : List GoString :=
  [u.path, u.mkey, u.field, u.method]

def actionStrings (a : ActionConfig) : List GoString :=
  [a.type, a.certDir, a.certFile, a.chainFile, a.fullchainFile, a.keyFile,
    a.pkcs12File, a.serviceName, a.command] ++
  a.combinedFiles.flatMap combinedStrings ++
  a.fortiOS.elim [] fortiOSStrings ++
  a.profileUpdates.flatMap updateStrings

def strings (t : TaskConfig) : List GoString :=
  t.name :: t.actions.flatMap actionStrings

theorem combined_strings {a : ActionConfig} {cf : CombinedFile}
    (h : cf ∈ a.combinedFiles) : ∀ s ∈ combinedStrings cf, s ∈ actionStrings a := by
  intro s hs
  simp only [actionStrings, List.mem_append, List.mem_flatMap]
  exact .inl (.inl (.inr ⟨cf, h, hs⟩))

theorem fortiOS_strings {a : ActionConfig} {f : FortiOSConfig}
    (h : a.fortiOS = some f) : ∀ s ∈ fortiOSStrings f, s ∈ actionStrings a := by
  intro s hs
  simp only [actionStrings, List.mem_append, h]
  exact .inl (.inr hs)

theorem update_strings {a : ActionConfig} {u : FortiOSProfileUpdate}
    (h : u ∈ a.profileUpdates) : ∀ s ∈ updateStrings u, s ∈ actionStrings a := by
  intro s hs
  simp only [actionStrings, List.mem_append, List.mem_flatMap]
  exact .inr ⟨u, h, hs⟩

theorem relevantAction_strings {a : ActionConfig} {s : GoString}
    (h : s ∈ actionStrings (relevantAction a)) : s ∈ actionStrings a ∨ s = [] := by
  unfold relevantAction at h
  split_ifs at h <;> simp [actionStrings, newAction] at h ⊢ <;> grind

/-! ## Nodes that can be written -/

theorem ne_nil_of_trimSpace {s : GoString} (h : s.trimSpace ≠ []) : s ≠ [] := by
  rintro rfl
  exact h rfl

/-- Whatever its type is, the action has nothing that is not accepted. -/
structure Legible (upper : Nat → Nat) (a : ActionConfig) : Prop where
  type : a.type ≠ []
  strings : ∀ s ∈ actionStrings a, s.valid = true
  combined : ∀ cf ∈ a.combinedFiles, CombinedReady cf
  fortiOS : ∀ f ∈ a.fortiOS, FortiOSAccepted f
  updates : ∀ u ∈ a.profileUpdates, UpdateAccepted upper u

theorem Legible.knownParts {upper : Nat → Nat} {a : ActionConfig}
    (h : Legible upper a) : KnownParts a :=
  fun cf hcf => (h.combined cf hcf).known

/-- **The relevant fields** of an accepted action are all accepted. -/
theorem legible_relevant {upper : Nat → Nat} {a : ActionConfig}
    (haccepted : a.Accepted upper) (hvalid : ∀ s ∈ actionStrings a, s.valid = true) :
    Legible upper (relevantAction a) := by
  have hstrings : ∀ s ∈ actionStrings (relevantAction a), s.valid = true := by
    intro s hs
    rcases relevantAction_strings hs with hs | rfl
    · exact hvalid s hs
    · rfl
  have hknown : a.type ≠ [] := by
    have hall : ∀ type ∈ actionTypes, type ≠ [] := by decide +kernel
    exact hall _ haccepted.known
  refine ⟨by rwa [relevantAction_type], hstrings, ?_, ?_, ?_⟩
  · intro cf hcf
    obtain ⟨htype, hcf⟩ := mem_relevant_combined hcf
    exact (haccepted.certSave htype).combined cf hcf
  · intro f hf
    obtain ⟨htype, hf⟩ := relevant_fortiOS hf
    obtain ⟨cfg, hcfg, hready⟩ := haccepted.fortiOS htype
    obtain rfl := Option.some.inj (hcfg.symm.trans hf)
    exact hready
  · intro u hu
    obtain ⟨htype, hu⟩ := mem_relevant_updates hu
    exact (haccepted.updates htype).2 u hu

section Write

variable (wide : Nat → Bool) {upper : Nat → Nat}

theorem wf_given {s : GoString} (hs : s.valid = true) :
    ∀ n ∈ givenText s, n.Wf (quote wide) :=
  wf_text (quotes_quote wide hs)

theorem wf_combined {cf : CombinedFile} (h : CombinedReady cf)
    (hvalid : cf.filename.valid = true) : (combinedNode cf).Wf (quote wide) := by
  have hname := ne_nil_of_trimSpace h.filename
  refine wf_present (keys_combined cf) (by simp [combinedFields, present_text hname])
    ?_
  simp only [combinedFields, List.forall_mem_cons]
  refine ⟨wf_given wide hvalid, ?_, by simp⟩
  rintro _ ⟨⟩
  have hflow : (Value.flow cf.parts).Wf (quote wide) :=
    ⟨h.parts, fun p hp => (tags_keys.2 p (h.known p hp)).1⟩
  exact .value hflow

theorem wf_fortiOS {f : FortiOSConfig} (h : FortiOSAccepted f)
    (hvalid : ∀ s ∈ fortiOSStrings f, s.valid = true) :
    (fortiOSNode f).Wf (quote wide) := by
  have hhost := ne_nil_of_trimSpace h.host
  refine wf_present (keys_fortiOS f) (by simp [fortiOSFields, present_text hhost]) ?_
  simp only [fortiOSStrings, List.forall_mem_cons] at hvalid
  obtain ⟨hhost, htoken, hname, hscope, -⟩ := hvalid
  simp only [fortiOSFields, List.forall_mem_cons]
  exact ⟨wf_given wide hhost, wf_given wide htoken, wf_given wide hname,
    wf_given wide hscope, wf_flag _, wf_flag _, by simp⟩

theorem wf_update {u : FortiOSProfileUpdate} (h : UpdateAccepted upper u)
    (hvalid : ∀ s ∈ updateStrings u, s.valid = true) :
    (updateNode u).Wf (quote wide) := by
  have hpath := ne_nil_of_trimSpace h.path
  refine wf_present (keys_update u) (by simp [updateFields, present_text hpath]) ?_
  simp only [updateStrings, List.forall_mem_cons] at hvalid
  obtain ⟨hpath, hmkey, hfield, hmethod, -⟩ := hvalid
  simp only [updateFields, List.forall_mem_cons]
  exact ⟨wf_given wide hpath, wf_given wide hmkey, wf_given wide hfield,
    wf_given wide hmethod, by simp⟩

theorem wf_action {a : ActionConfig} (h : Legible upper a) :
    (actionNode a).Wf (quote wide) := by
  have hcombined : ∀ cf ∈ a.combinedFiles, (combinedNode cf).Wf (quote wide) :=
    fun cf hcf => wf_combined wide (h.combined cf hcf)
      (h.strings _ (combined_strings hcf _ List.mem_cons_self))
  have hfortiOS : ∀ n ∈ a.fortiOS.map fortiOSNode, n.Wf (quote wide) := by
    intro n hn
    obtain ⟨f, hf, rfl⟩ := Option.map_eq_some_iff.mp hn
    exact wf_fortiOS wide (h.fortiOS f hf)
      fun s hs => h.strings s (fortiOS_strings hf s hs)
  have hupdates : ∀ u ∈ a.profileUpdates, (updateNode u).Wf (quote wide) :=
    fun u hu => wf_update wide (h.updates u hu)
      fun s hs => h.strings s (update_strings hu s hs)
  have hvalid := h.strings
  simp only [actionStrings, List.forall_mem_append, List.forall_mem_cons] at hvalid
  obtain ⟨⟨⟨⟨htype, hdir, hcert, hchain, hfullchain, hkey, hpkcs12, hservice,
    hcommand, -⟩, -⟩, -⟩, -⟩ := hvalid
  refine wf_present (keys_action a) (by simp [actionFields, present_text h.type]) ?_
  simp only [actionFields, actionBody, List.forall_mem_cons]
  exact ⟨wf_given wide htype, wf_given wide hdir, wf_given wide hcert,
    wf_given wide hchain, wf_given wide hfullchain, wf_given wide hkey,
    wf_given wide hpkcs12, wf_list hcombined, wf_given wide hservice,
    wf_given wide hcommand, hfortiOS, wf_list hupdates, by simp⟩

theorem wf_task {t : TaskConfig} (hname : t.name ≠ [])
    (hvalid : t.name.valid = true) (h : ∀ a ∈ t.actions, Legible upper a) :
    (taskNode t).Wf (quote wide) := by
  refine wf_present (keys_task t) (by simp [taskFields, present_text hname]) ?_
  simp only [taskFields, List.forall_mem_cons]
  exact ⟨wf_given wide hvalid, wf_list fun a ha => wf_action wide (h a ha), by simp⟩

/-! ## Line by line -/

theorem print_line (col : Nat) (k : GoString) (v : Value)
    (es : List (GoString × Node)) :
    (Node.map ((k, .value v) :: es)).print (quote wide) col =
      line col k (v.write (quote wide)) ++
        (Node.map es).print (quote wide) col := by
  rw [print_value]
  simp [line]

theorem print_quoted {s : GoString} (hs : s ≠ []) (col : Nat) (k : GoString)
    (fs : List (GoString × Option Node)) :
    (Node.map (present ((k, givenText s) :: fs))).print (quote wide) col =
      quoted wide col k s ++ (Node.map (present fs)).print (quote wide) col := by
  rw [present_text hs]
  exact print_line wide col k _ _

theorem print_quotedIfSet (s : GoString) (col : Nat) (k : GoString)
    (fs : List (GoString × Option Node)) :
    (Node.map (present ((k, givenText s) :: fs))).print (quote wide) col =
      quotedIfSet wide col k s ++
        (Node.map (present fs)).print (quote wide) col := by
  by_cases hs : s = []
  · simp [hs, quotedIfSet]
  · rw [print_quoted wide hs, quotedIfSet, if_pos hs]

theorem print_flag (b : Bool) (col : Nat) (k : GoString)
    (fs : List (GoString × Option Node)) :
    (Node.map (present ((k, givenFlag b) :: fs))).print (quote wide) col =
      flag col k b ++ (Node.map (present fs)).print (quote wide) col := by
  cases b with
  | false => rfl
  | true => exact print_line wide col k _ _

theorem print_heading {n : Node} (hinline : n.inline = none)
    (hwf : n.Wf (quote wide)) (col : Nat) (k : GoString)
    (es : List (GoString × Node)) :
    (Node.map ((k, n) :: es)).print (quote wide) col =
      heading col k ++ (n.print (quote wide) (col + 2) ++
        (Node.map es).print (quote wide) col) := by
  rw [print_block col k hinline hwf]
  simp [heading]

/-- The items of a list begin with a text that is always written. -/
theorem print_items {α : Type} (node : α → Node) {k : GoString}
    {name : α → GoString} {rest : α → List (GoString × Option Node)}
    (hnode : ∀ x, node x = .map (present ((k, givenText (name x)) :: rest x)))
    (col : Nat) {xs : List α} (hname : ∀ x ∈ xs, name x ≠ [])
    (hwf : ∀ x ∈ xs, (node x).Wf (quote wide)) :
    (Node.seq (xs.map node)).print (quote wide) col =
      xs.flatMap fun x => item wide col k (name x) ++
        (Node.map (present (rest x))).print (quote wide) (col + 2) := by
  induction xs with
  | nil => rfl
  | cons x xs ih =>
      rw [List.forall_mem_cons] at hname hwf
      have hx := hwf.1
      rw [hnode x, present_text hname.1] at hx
      rw [List.map_cons, hnode x, present_text hname.1, Node.str, print_item col hx,
        ih hname.2 hwf.2]
      simp [item, line, Value.write, Scalar.write]

theorem print_fortiOS {f : FortiOSConfig} (h : FortiOSAccepted f)
    (hwf : (fortiOSNode f).Wf (quote wide)) (es : List (GoString × Node)) :
    (Node.map ((lit "fortios", fortiOSNode f) :: es)).print (quote wide) 8 =
      printFortiOSYAML wide f ++ (Node.map es).print (quote wide) 8 := by
  rw [print_heading wide rfl hwf, fortiOSNode, fortiOSFields,
    print_quoted wide (ne_nil_of_trimSpace h.host),
    print_quoted wide (ne_nil_of_trimSpace h.accessToken),
    print_quoted wide (ne_nil_of_trimSpace h.certName), print_quotedIfSet,
    print_flag, print_flag]
  simp [printFortiOSYAML]

theorem print_combinedFiles {cfs : List CombinedFile}
    (h : ∀ cf ∈ cfs, CombinedReady cf)
    (hwf : ∀ cf ∈ cfs, (combinedNode cf).Wf (quote wide)) :
    (Node.seq (cfs.map combinedNode)).print (quote wide) 10 =
      cfs.flatMap (printCombinedFile wide) := by
  rw [print_items wide combinedNode (fun _ => rfl) 10
    (fun cf hcf => ne_nil_of_trimSpace (h cf hcf).filename) hwf]
  simp only [print_line, present_some, present_nil, print_map_nil, Value.write,
    List.append_nil]
  rfl

theorem print_updates {us : List FortiOSProfileUpdate}
    (h : ∀ u ∈ us, UpdateAccepted upper u)
    (hwf : ∀ u ∈ us, (updateNode u).Wf (quote wide)) :
    (Node.seq (us.map updateNode)).print (quote wide) 10 =
      us.flatMap (printUpdate wide) := by
  rw [print_items wide updateNode (fun _ => rfl) 10
    (fun u hu => ne_nil_of_trimSpace (h u hu).path) hwf]
  refine List.flatMap_congr fun u hu => ?_
  rw [print_quotedIfSet, print_quoted wide (ne_nil_of_trimSpace (h u hu).field),
    print_quotedIfSet]
  simp [printUpdate]

section Types

variable {a : ActionConfig}

theorem print_serviceRestart (h : a.serviceName.trimSpace ≠ [])
    (htype : a.type = actionServiceRestart) :
    (Node.map (present (actionBody (relevantAction a)))).print (quote wide) 8 =
      printFields wide a := by
  have hrelevant : relevantAction a =
      { newAction a.type with serviceName := a.serviceName } := by
    simp +decide [relevantAction, htype]
  have hfields : printFields wide a = quoted wide 8 "service_name" a.serviceName := by
    simp +decide [printFields, htype]
  rw [hrelevant, hfields]
  simp [actionBody, newAction, print_quoted wide (ne_nil_of_trimSpace h)]

theorem print_exec (h : a.command.trimSpace ≠ []) (htype : a.type = actionExec) :
    (Node.map (present (actionBody (relevantAction a)))).print (quote wide) 8 =
      printFields wide a := by
  have hrelevant : relevantAction a =
      { newAction a.type with command := a.command } := by
    simp +decide [relevantAction, htype]
  have hfields : printFields wide a = quoted wide 8 "command" a.command := by
    simp +decide [printFields, htype]
  rw [hrelevant, hfields]
  simp [actionBody, newAction, print_quoted wide (ne_nil_of_trimSpace h)]

variable (hvalid : ∀ s ∈ actionStrings a, s.valid = true)

include hvalid

theorem print_certSave (h : CertSaveReady a.toSaveAction)
    (htype : a.type = actionCertSave) :
    (Node.map (present (actionBody (relevantAction a)))).print (quote wide) 8 =
      printFields wide a := by
  have hwf : ∀ cf ∈ a.combinedFiles, (combinedNode cf).Wf (quote wide) :=
    fun cf hcf => wf_combined wide (h.combined cf hcf)
      (hvalid _ (combined_strings hcf _ List.mem_cons_self))
  rw [relevantAction, if_pos htype, printFields, if_pos htype]
  dsimp only [actionBody, newAction]
  rw [print_quoted wide (ne_nil_of_trimSpace h.certDir), print_quotedIfSet,
    print_quotedIfSet, print_quotedIfSet, print_quotedIfSet, print_quotedIfSet]
  by_cases hfiles : a.combinedFiles = []
  · simp [hfiles]
  · have hseq : (Node.seq (a.combinedFiles.map combinedNode)).Wf (quote wide) :=
      .seq (by simpa using hfiles) (List.forall_mem_map.mpr hwf)
    rw [present_list hfiles, print_heading wide rfl hseq,
      print_combinedFiles wide h.combined hwf]
    simp [hfiles]

/-- The lines of the settings of a FortiGate, in front of the updates. -/
theorem print_settings {f : FortiOSConfig} (hf : a.fortiOS = some f)
    (h : FortiOSAccepted f) (us : List FortiOSProfileUpdate) :
    (Node.map (present (actionBody { newAction a.type with
      fortiOS := some f, profileUpdates := us }))).print (quote wide) 8 =
      printFortiOSYAML wide f ++
        (Node.map (present [(lit "profile_updates",
          givenList updateNode us)])).print (quote wide) 8 := by
  have hwf := wf_fortiOS wide h fun s hs => hvalid s (fortiOS_strings hf s hs)
  dsimp only [actionBody, newAction]
  simp only [givenText_nil, givenList_nil, present_none, Option.map_some,
    present_some]
  exact print_fortiOS wide h hwf _

theorem print_replace (htype : a.type = actionFortiOSProfileCertReplace)
    {f : FortiOSConfig} (hf : a.fortiOS = some f) (hfortiOS : FortiOSAccepted f)
    (hne : a.profileUpdates ≠ [])
    (hupdates : ∀ u ∈ a.profileUpdates, UpdateAccepted upper u) :
    (Node.map (present (actionBody (relevantAction a)))).print (quote wide) 8 =
      printFields wide a := by
  have hwf : ∀ u ∈ a.profileUpdates, (updateNode u).Wf (quote wide) :=
    fun u hu => wf_update wide (hupdates u hu)
      fun s hs => hvalid s (update_strings hu s hs)
  have hseq : (Node.seq (a.profileUpdates.map updateNode)).Wf (quote wide) :=
    .seq (by simpa using hne) (List.forall_mem_map.mpr hwf)
  have hrelevant : relevantAction a = { newAction a.type with
      fortiOS := some f, profileUpdates := a.profileUpdates } := by
    simp +decide [relevantAction, htype, hf]
  have hfields : printFields wide a = printFortiOSYAML wide f ++
      heading 8 "profile_updates" ++
        a.profileUpdates.flatMap (printUpdate wide) := by
    simp +decide [printFields, htype, hf]
  rw [hrelevant, print_settings wide hvalid hf hfortiOS, present_list hne,
    print_heading wide rfl hseq, print_updates wide hupdates hwf, hfields]
  simp

theorem print_fortiOSOnly (htype : a.type = actionFortiOSUpload ∨
      a.type = actionFortiOSAdminServerCertUpdate)
    {f : FortiOSConfig} (hf : a.fortiOS = some f) (hfortiOS : FortiOSAccepted f) :
    (Node.map (present (actionBody (relevantAction a)))).print (quote wide) 8 =
      printFields wide a := by
  have hrelevant : relevantAction a =
      { newAction a.type with fortiOS := some f, profileUpdates := [] } := by
    rcases htype with htype | htype <;>
      simp +decide [relevantAction, htype, hf, newAction]
  have hfields : printFields wide a = printFortiOSYAML wide f := by
    rcases htype with htype | htype <;> simp +decide [printFields, htype, hf]
  rw [hrelevant, print_settings wide hvalid hf hfortiOS, hfields]
  simp

/-- **The lines of an accepted action** are those of its relevant fields. -/
theorem print_body (h : a.Accepted upper) :
    (Node.map (present (actionBody (relevantAction a)))).print (quote wide) 8 =
      printFields wide a := by
  have hknown := h.known
  simp only [actionTypes, List.mem_cons, List.not_mem_nil, or_false] at hknown
  rcases hknown with htype | htype | htype | htype | htype | htype
  · exact print_certSave wide hvalid (h.certSave htype) htype
  · exact print_serviceRestart wide (h.serviceName htype) htype
  · exact print_exec wide (h.command htype) htype
  · obtain ⟨f, hf, hready⟩ := (accepted_fortiOS (.inl htype)).mp h
    exact print_fortiOSOnly wide hvalid (.inl htype) hf hready
  · obtain ⟨⟨f, hf, hready⟩, hne, hupdates⟩ := (accepted_replace htype).mp h
    exact print_replace wide hvalid htype hf hready hne hupdates
  · obtain ⟨f, hf, hready⟩ := (accepted_fortiOS (.inr htype)).mp h
    exact print_fortiOSOnly wide hvalid (.inr htype) hf hready

end Types

/-! ## The snippet -/

section Snippet

variable {t : TaskConfig} (haccepted : t.Accepted upper)
  (hvalid : ∀ s ∈ strings t, s.valid = true)

include haccepted hvalid

theorem legible_actions : ∀ a ∈ (relevant t).actions, Legible upper a :=
  List.forall_mem_map.mpr fun a ha =>
    legible_relevant (haccepted.accepted a ha) fun s hs =>
      hvalid s (List.mem_cons_of_mem _ (List.mem_flatMap.mpr ⟨a, ha, hs⟩))

theorem wf_relevant : (taskNode (relevant t)).Wf (quote wide) :=
  wf_task wide (t := relevant t) (ne_nil_of_trimSpace haccepted.name)
    (hvalid _ List.mem_cons_self) (legible_actions haccepted hvalid)

/-- The lines of the actions. -/
theorem print_actions :
    (Node.seq ((relevant t).actions.map actionNode)).print (quote wide) 6 =
      t.actions.flatMap (printAction wide) := by
  have hlegible := legible_actions haccepted hvalid
  rw [print_items wide actionNode (fun _ => rfl) 6 (fun a ha => (hlegible a ha).type)
    (fun a ha => wf_action wide (hlegible a ha)), relevant, List.flatMap_map]
  refine List.flatMap_congr fun a ha => ?_
  have hstrings : ∀ s ∈ actionStrings a, s.valid = true := fun s hs =>
    hvalid s (List.mem_cons_of_mem _ (List.mem_flatMap.mpr ⟨a, ha, hs⟩))
  rw [relevantAction_type, print_body wide hstrings (haccepted.accepted a ha)]
  rfl

/-- **The snippet of an accepted task** is its relevant fields in block style. -/
theorem printTaskYAML_eq :
    printTaskYAML wide t =
      (Node.seq [taskNode (relevant t)]).print (quote wide) 2 := by
  have hne : (relevant t).actions ≠ [] := by
    simpa [relevant] using haccepted.actions
  have hactions : (Node.seq ((relevant t).actions.map actionNode)).Wf (quote wide) :=
    .seq (by simpa using hne) (List.forall_mem_map.mpr fun a ha =>
      wf_action wide (legible_actions haccepted hvalid a ha))
  have hname : ∀ u ∈ [relevant t], u.name ≠ [] :=
    List.forall_mem_singleton.mpr (ne_nil_of_trimSpace haccepted.name)
  have hprint := print_items wide taskNode (fun _ => rfl) 2 hname
    (List.forall_mem_singleton.mpr (wf_relevant wide haccepted hvalid))
  rw [List.map_singleton, List.flatMap_singleton, present_list hne,
    print_heading wide rfl hactions, print_actions wide haccepted hvalid] at hprint
  rw [hprint]
  simp [printTaskYAML, relevant]

end Snippet

/-- **The snippet is read as the task**, but for the fields that the types of
its actions do not need; the task is one of a configuration that has passed, as
it was or as it is then. -/
theorem snippet_reads_back {c c' : WorkerConfig} {t : TaskConfig}
    (hvalidate : c.validate upper = .ok c')
    (ht : t ∈ c.tasks ∨ t ∈ c'.tasks)
    (hvalid : ∀ s ∈ strings t, s.valid = true) :
    readTasks (printTaskYAML wide t) = some [relevant t] := by
  have haccepted := validate_accepted hvalidate ht
  have htask : readTask (taskNode (relevant t)) = some (relevant t) :=
    readTask_node fun a ha => (legible_actions haccepted hvalid a ha).knownParts
  have hwf : (Node.seq [taskNode (relevant t)]).Wf (quote wide) :=
    .seq (by simp) (List.forall_mem_singleton.mpr
      (wf_relevant wide haccepted hvalid))
  rw [readTasks, printTaskYAML_eq wide haccepted hvalid, load_print hwf]
  simp [Node.list, Node.items, htask]

end Write

private def renewalTask : TaskConfig where
  name := "renewal"
  actions := [
    { newAction actionCertSave with
      certDir := "/etc/certs", keyFile := "key.pem",
      combinedFiles := [⟨"all.pem", ["key", "fullchain"]⟩] },
    { newAction actionExec with command := "echo \"done\"" }]

theorem snippet_reads_back_renewal :
    readTasks (printTaskYAML (fun _ => true) renewalTask) =
      some [renewalTask] := by
  have hsave : CertSaveReady renewalTask.actions[0].toSaveAction := by
    refine ⟨by decide +kernel, .inl (by decide +kernel), ?_⟩
    intro cf hcf
    obtain rfl := List.mem_singleton.mp hcf
    exact ⟨by decide +kernel, by decide, by decide +kernel⟩
  have hexec : renewalTask.actions[1].command.trimSpace ≠ [] := by decide +kernel
  have haccepted : renewalTask.Accepted id := by
    refine ⟨by decide +kernel, by decide, List.forall_mem_cons.mpr ⟨?_,
      List.forall_mem_singleton.mpr ?_⟩⟩
    · exact (accepted_certSave rfl).mpr hsave
    · exact (accepted_exec rfl).mpr hexec
  have hconfig : (WorkerConfig.mk 1 8080 [] [renewalTask]).tasks = [renewalTask] :=
    rfl
  obtain ⟨c', hc'⟩ := (validate_single_isOk (by decide) hconfig).mpr haccepted
  have hread := snippet_reads_back (fun _ => true) hc'
    (.inl List.mem_cons_self) (by decide +kernel)
  have hrelevant : relevant renewalTask = renewalTask := by decide +kernel
  rw [hread, hrelevant]

end Hdns.Ports.TaskSnippet

import Hdns.Ports.TaskConfigs
import Hdns.Verified.Dialogue
import Hdns.Verified.MimeHeader
import Hdns.Verified.TrimSpace

/-!
# The task wizard of the worker

`RunGenerateTask` asks for a task line by line.  It reads the standard input
with a scanner and never looks at what `Scan` returns: past the end of the input,
and soon after a line that does not fit into the buffer of the scanner, every
answer is empty.  The texts of the prompts are left out.

The answers to the wizard are a regular language over lines, written down below
prompt by prompt, once with what the worker later demands and once without.

## Main results

* `scan_append`, `scan_of_long` — what the scanner hands out.
* `covers_runGenerateTask` — the wizard covers its answers.
* `runGenerateTask_terminates_iff` — on which inputs it ends.
* `generated_accepted_iff` — when the worker accepts the task it has built.
* `wizard_spins_on_long_host` — what one line that is too long does.
-/

namespace Hdns.Ports.Wizard

open Computability
open Hdns.Verified
open Hdns.Verified.GoString
open Hdns.Verified.MimeHeader
open Hdns.Verified.Procedure
open Hdns.Verified.Dialogue
open Hdns.Ports.Worker
open Hdns.Ports.TaskConfigs

/-! ## The scanner -/

/-- `bufio.MaxScanTokenSize`. -/
def maxScanTokenSize : Nat := 64 * 1024

/-- What `Text` gives after each call of `Scan`, as far as it is not empty from
then on.  The lines are those of the input with their carriage returns, which
`TrimSpace` drops as `ScanLines` does.

A line that fills the buffer before its newline stops the scanner with
`ErrTooLong`.  That call has no token.  The next one finds the error set, takes
the buffer for the rest of the input and hands it out.  After it there is
nothing left to scan. -/
def scan : List GoString → List GoString
  | [] => []
  | line :: lines =>
      if line.length < maxScanTokenSize then line :: scan lines
      else [[], line.take maxScanTokenSize]

/-- Lines that fit into the buffer are handed out one by one. -/
theorem scan_append {lines rest : List GoString}
    (h : ∀ line ∈ lines, line.length < maxScanTokenSize) :
    scan (lines ++ rest) = lines ++ scan rest := by
  induction lines with
  | nil => rfl
  | cons line lines ih =>
      simp only [List.forall_mem_cons] at h
      simp [scan, h.1, ih h.2]

/-- What stands behind a line that does not fit is never handed out. -/
theorem scan_of_long {line : GoString} (h : maxScanTokenSize ≤ line.length)
    (rest : List GoString) :
    scan (line :: rest) = [[], line.take maxScanTokenSize] := by
  simp [scan, Nat.not_lt.mpr h]

/-! ## The prompts -/

abbrev Prompt := Procedure (Session GoString)

/-- `optPrompt`. -/
def optPrompt : Prompt GoString := do
  let text ← ask
  pure text.trimSpace

/-- The body of the loop of `mustPrompt`. -/
def mustPromptTurn (_ : Unit) : Prompt (Unit ⊕ GoString) := do
  let v ← optPrompt
  pure (if v ≠ [] then .inr v else .inl ())

/-- `mustPrompt`. -/
def mustPrompt : Prompt GoString := loop mustPromptTurn ()

/-- `strings.EqualFold(answer, "y")`: no letter outside ASCII folds to `y`. -/
def isYes (answer : GoString) : Bool := EqualFold answer "y"

/-- The body of a loop that adds items until no other one is wanted. -/
def addAnother {χ : Type} (item : Prompt χ) (items : List χ) :
    Prompt (List χ ⊕ List χ) := do
  let x ← item
  let more ← optPrompt
  pure (if isYes more then .inl (items ++ [x]) else .inr (items ++ [x]))

/-! ## The wizards -/

/-- `config.ActionConfig{Type: t}`. -/
def newAction (type : GoString) : ActionConfig where
  certDir := []
  certFile := []
  chainFile := []
  fullchainFile := []
  keyFile := []
  pkcs12File := []
  combinedFiles := []
  type := type
  serviceName := []
  command := []
  fortiOS := none
  profileUpdates := []

/-- The parts that an answer names. -/
def partsOf (raw : GoString) : List GoString :=
  ((raw.splitOn 0x2C).map trimSpace).filter (· ≠ [])

/-- The body of the loop that asks for the parts of a combined file. -/
def promptParts (parts : List GoString) :
    Prompt (List GoString ⊕ List GoString) := do
  let raw ← mustPrompt
  let parts := parts ++ partsOf raw
  pure (if parts ≠ [] then .inr parts else .inl parts)

def promptCombinedFile : Prompt CombinedFile := do
  let filename ← mustPrompt
  let parts ← loop promptParts []
  pure { filename, parts }

/-- The body of the loop that asks for combined files. -/
def promptCombinedFiles (files : List CombinedFile) :
    Prompt (List CombinedFile ⊕ List CombinedFile) := do
  let more ← optPrompt
  if isYes more then do
    let cf ← promptCombinedFile
    pure (.inl (files ++ [cf]))
  else pure (.inr files)

def wizardCertSave : Prompt ActionConfig := do
  let certDir ← mustPrompt
  let certFile ← optPrompt
  let chainFile ← optPrompt
  let fullchainFile ← optPrompt
  let keyFile ← optPrompt
  let pkcs12File ← optPrompt
  let combinedFiles ← loop promptCombinedFiles []
  pure { newAction actionCertSave with
    certDir, certFile, chainFile, fullchainFile, keyFile, pkcs12File,
    combinedFiles }

def wizardServiceRestart : Prompt ActionConfig := do
  let serviceName ← mustPrompt
  pure { newAction actionServiceRestart with serviceName }

def wizardExec : Prompt ActionConfig := do
  let command ← mustPrompt
  pure { newAction actionExec with command }

/-- The scope that an answer selects. -/
def scopeOf (answer : GoString) : GoString :=
  if answer = [] then lit "vdom" else answer

def promptFortiOSBase : Prompt FortiOSConfig := do
  let host ← mustPrompt
  let accessToken ← mustPrompt
  let certName ← mustPrompt
  let scope ← optPrompt
  let insecure ← optPrompt
  let dryRun ← optPrompt
  pure { host, accessToken, certName, scope := scopeOf scope,
         tlsInsecure := isYes insecure, dryRun := isYes dryRun }

def wizardFortiOS : Prompt ActionConfig := do
  let cfg ← promptFortiOSBase
  pure { newAction actionFortiOSUpload with fortiOS := some cfg }

/-- The method that an answer selects. -/
def methodOf (upper : Nat → Nat) (answer : GoString) : GoString :=
  if toUpper upper answer = [] then lit "PUT" else toUpper upper answer

section Upper

variable (upper : Nat → Nat)

def promptProfileUpdate : Prompt FortiOSProfileUpdate := do
  let path ← mustPrompt
  let mkey ← optPrompt
  let field ← mustPrompt
  let method ← optPrompt
  pure { path, mkey, field, method := methodOf upper method }

/-- The body of the loop that asks for profile updates. -/
def promptProfileUpdates :
    List FortiOSProfileUpdate →
      Prompt (List FortiOSProfileUpdate ⊕ List FortiOSProfileUpdate) :=
  addAnother (promptProfileUpdate upper)

def wizardFortiOSProfileCertReplace : Prompt ActionConfig := do
  let cfg ← promptFortiOSBase
  let profileUpdates ← loop (promptProfileUpdates upper) []
  pure { newAction actionFortiOSProfileCertReplace with
    fortiOS := some cfg, profileUpdates }

def wizardFortiOSAdminServerCertUpdate : Prompt ActionConfig := do
  let cfg ← promptFortiOSBase
  pure { newAction actionFortiOSAdminServerCertUpdate with fortiOS := some cfg }

/-- The wizard of an action type. -/
def wizardOf (type : GoString) : Option (Prompt ActionConfig) :=
  if type = actionCertSave then some wizardCertSave
  else if type = actionServiceRestart then some wizardServiceRestart
  else if type = actionExec then some wizardExec
  else if type = actionFortiOSUpload then some wizardFortiOS
  else if type = actionFortiOSProfileCertReplace then
    some (wizardFortiOSProfileCertReplace upper)
  else if type = actionFortiOSAdminServerCertUpdate then
    some wizardFortiOSAdminServerCertUpdate
  else none

/-- The body of the loop that asks for the type of an action. -/
def promptAction (_ : Unit) : Prompt (Unit ⊕ ActionConfig) := do
  let t ← mustPrompt
  match wizardOf upper t with
  | some wizard => do
      let action ← wizard
      pure (.inr action)
  | none => pure (.inl ())

/-- The body of the loop over the actions. -/
def promptActions :
    List ActionConfig → Prompt (List ActionConfig ⊕ List ActionConfig) :=
  addAnother (loop (promptAction upper) ())

/-- `RunGenerateTask`, with the task it has built. -/
def runGenerateTask : Prompt TaskConfig := do
  let name ← mustPrompt
  let actions ← loop (promptActions upper) []
  pure { name, actions }

end Upper

/-! ## The answers -/

/-- The answer to `optPrompt`. -/
def optional (P : GoString → Prop) : Language GoString :=
  {d | ∃ line, d = [line] ∧ P line.trimSpace}

def blank : Language GoString := optional (· = [])

/-- The answers to `mustPrompt`: blank lines, and one that is not. -/
def required (P : GoString → Prop) : Language GoString :=
  blank∗ * optional fun v => v ≠ [] ∧ P v

def anything : GoString → Prop := fun _ => True

def yes : Language GoString := optional fun v => isYes v = true

def no : Language GoString := optional fun v => ¬isYes v = true

/-- The answers to a loop that adds items. -/
def itemsAnswers (item : Language GoString) : Language GoString :=
  (item * yes)∗ * (item * no)

def onlyIf (c : Prop) (L : Language GoString) : Language GoString :=
  {d | c ∧ d ∈ L}

section Answers

variable (checked : Prop)

/-- The answers about the parts of a combined file; if `checked`, all of them
are known. -/
def partsAnswers : Language GoString :=
  (required fun raw => partsOf raw = [])∗ *
    required fun raw => partsOf raw ≠ [] ∧
      (checked → ∀ p ∈ partsOf raw, p ∈ validParts)

def combinedFileAnswers : Language GoString :=
  required anything * partsAnswers checked

def combinedFilesAnswers : Language GoString :=
  (yes * combinedFileAnswers checked)∗ * no

/-- If `checked`, some file is asked for. -/
def certSaveAnswers : Language GoString :=
  required anything * (optional anything ^ 5 * combinedFilesAnswers checked) -
    onlyIf checked (required anything * (blank ^ 5 * no))

/-- If `checked`, the scope is one there is. -/
def fortiOSAnswers : Language GoString :=
  required anything * required anything * required anything *
    optional (fun v => checked → v ∈ [[], lit "vdom", lit "global"]) *
    optional anything * optional anything

variable (upper : Nat → Nat)

/-- If `checked`, the method is one that can be used. -/
def updateAnswers : Language GoString :=
  required anything * optional anything * required anything *
    optional fun v => checked → toUpper upper (toUpper upper v).trimSpace ∈
      [[], lit "PUT", lit "PATCH", lit "POST"]

/-- The answers to the wizard of an action type. -/
def wizardAnswers (type : GoString) : Language GoString :=
  if type = actionCertSave then certSaveAnswers checked
  else if type = actionServiceRestart then required anything
  else if type = actionExec then required anything
  else if type = actionFortiOSUpload then fortiOSAnswers checked
  else if type = actionFortiOSProfileCertReplace then
    fortiOSAnswers checked * itemsAnswers (updateAnswers checked upper)
  else if type = actionFortiOSAdminServerCertUpdate then fortiOSAnswers checked
  else 0

/-- Types that are not known are asked for again. -/
def actionAnswers : Language GoString :=
  (required fun t => t ∉ actionTypes)∗ *
    ⨆ t, required (· = t) * wizardAnswers checked upper t

/-- The answers to all questions of the wizard; if `checked`, those that
describe a task the worker accepts. -/
def answers : Language GoString :=
  required anything * itemsAnswers (actionAnswers checked upper)

end Answers

/-! ## What the prompts cover -/

theorem covers_optPrompt (P : GoString → Prop) :
    Covers optPrompt True P (optional P) :=
  covers_map (covers_ask fun line : GoString => P line.trimSpace) fun _ => by simp

theorem yields_optPrompt {s t : Session GoString} {v : GoString}
    (h : optPrompt.Yields s v t) : v = s.next.trimSpace ∧ t = s.rest := by
  obtain ⟨_, _, hask, hpure⟩ := yields_bind.mp h
  obtain ⟨rfl, rfl⟩ := yields_ask.mp hask
  exact yields_pure.mp hpure

theorem covers_mustPrompt (P : GoString → Prop) :
    Covers mustPrompt True P (required P) := by
  refine covers_loop (I := fun _ => True) (J := fun _ => True)
    (fun _ _ _ _ _ _ => trivial) (fun _ _ => ?_) (fun _ _ => ?_) trivial
  · refine covers_map (covers_optPrompt (· = [])) fun v => ?_
    by_cases hv : v = [] <;> simp [hv]
  · refine covers_map (covers_optPrompt fun v => v ≠ [] ∧ P v) fun v => ?_
    by_cases hv : v = [] <;> simp [hv]

/-- A turn of `mustPrompt`: a blank line is asked for again, and another one is
the answer. -/
theorem yields_mustPromptTurn {s t : Session GoString} {r : Unit ⊕ GoString}
    (h : (mustPromptTurn ()).Yields s r t) :
    r = (if s.next.trimSpace ≠ [] then .inr s.next.trimSpace else .inl ()) ∧
      t = s.rest := by
  obtain ⟨_, _, hopt, hpure⟩ := yields_bind.mp h
  obtain ⟨rfl, rfl⟩ := yields_optPrompt hopt
  exact yields_pure.mp hpure

theorem mustPrompt_next {s t : Session GoString} {v : GoString}
    (h : mustPrompt.Yields s v t) :
    s.next.trimSpace ≠ [] ∧ v = s.next.trimSpace ∧ t = s.rest ∨
      s.next.trimSpace = [] ∧ mustPrompt.Yields s.rest v t := by
  rcases yields_loop.mp h with hturn | ⟨_, u, hturn, hrest⟩
  · obtain ⟨hv, rfl⟩ := yields_mustPromptTurn hturn
    by_cases hblank : s.next.trimSpace = []
    · simp [hblank] at hv
    · rw [if_pos hblank, Sum.inr.injEq] at hv
      exact .inl ⟨hblank, hv, rfl⟩
  · obtain ⟨hv, rfl⟩ := yields_mustPromptTurn hturn
    by_cases hblank : s.next.trimSpace = []
    · exact .inr ⟨hblank, hrest⟩
    · simp [hblank] at hv

/-- What is answered is not blank. -/
theorem yields_mustPrompt {s t : Session GoString} {v : GoString}
    (h : mustPrompt.Yields s v t) : v.trimSpace ≠ [] ∧ s.lines ≠ [] := by
  refine yields_loop_rec (P := fun _ s => v.trimSpace ≠ [] ∧ s.lines ≠ [])
    (fun _ s hturn => ?_) (fun _ s _ u hturn ih => ?_) h
  · have hv := (yields_mustPromptTurn hturn).1
    by_cases hblank : s.next.trimSpace = []
    · simp [hblank] at hv
    · rw [if_pos hblank, Sum.inr.injEq] at hv
      rw [hv, trimSpace_trimSpace]
      refine ⟨hblank, fun hnone => hblank ?_⟩
      rw [Session.next, hnone]
      rfl
  · obtain ⟨-, rfl⟩ := yields_mustPromptTurn hturn
    refine ⟨ih.1, fun hnone => ih.2 ?_⟩
    rw [Session.rest, hnone]
    rfl

section Checked

variable (checked : Prop)

/-- A required field is never refused for being blank. -/
theorem covers_text :
    Covers mustPrompt True (fun v => checked → v.trimSpace ≠ [])
      (required anything) :=
  (covers_mustPrompt anything).congr Iff.rfl fun _ _ _ h =>
    ⟨fun _ _ => (yields_mustPrompt h).1, fun _ => trivial⟩

/-- A loop that adds items. -/
theorem covers_addAnother {χ : Type} {item : Prompt χ} {P : χ → Prop}
    {L : Language GoString} (hitem : Covers item True (fun x => checked → P x) L) :
    Covers (loop (addAnother item) []) True
      (fun xs => checked → xs ≠ [] ∧ ∀ x ∈ xs, P x) (itemsAnswers L) := by
  have hloop : Covers (loop (addAnother item) []) (checked → ∀ x ∈ [], P x)
      (fun xs => checked → xs ≠ [] ∧ ∀ x ∈ xs, P x) (itemsAnswers L) := by
    refine covers_loop (I := fun xs => checked → ∀ x ∈ xs, P x)
      (J := fun _ => True) (fun _ _ _ _ _ _ => trivial) (fun xs _ => ?_)
      (fun xs _ => ?_) trivial
    · refine covers_bind hitem fun x =>
        covers_map (covers_optPrompt fun v => isYes v = true) fun more => ?_
      by_cases hmore : isYes more = true
      · simp only [hmore, if_true, Sum.elim_inl, and_true,
          List.forall_mem_append, List.forall_mem_singleton, imp_and]
      · simp [hmore]
    · refine covers_bind hitem fun x =>
        covers_map (covers_optPrompt fun v => ¬isYes v = true) fun more => ?_
      by_cases hmore : isYes more = true
      · simp [hmore]
      · simp [hmore, or_imp, forall_and]
  refine hloop.congr ?_ fun _ _ _ _ => Iff.rfl
  simp

theorem covers_parts :
    Covers (loop promptParts []) True
      (fun parts => checked → parts ≠ [] ∧ ∀ p ∈ parts, p ∈ validParts)
      (partsAnswers checked) := by
  refine covers_loop (I := fun _ => True) (J := fun parts => parts = [])
    (fun parts hparts s y t hturn => ?_) (fun parts hparts => ?_)
    (fun parts hparts => ?_) rfl
  · obtain ⟨raw, u, -, hpure⟩ := yields_bind.mp hturn
    have hy := (yields_pure.mp hpure).1
    by_cases hnone : parts ++ partsOf raw = []
    · simp only [hnone, ne_eq, not_true, if_false, Sum.inl.injEq] at hy
      exact hy
    · simp [hnone] at hy
  · obtain rfl := hparts
    refine covers_map (covers_mustPrompt fun raw => partsOf raw = [])
      fun raw => ?_
    by_cases hnone : partsOf raw = [] <;> simp [hnone]
  · obtain rfl := hparts
    refine covers_map (covers_mustPrompt fun raw => partsOf raw ≠ [] ∧
      (checked → ∀ p ∈ partsOf raw, p ∈ validParts)) fun raw => ?_
    by_cases hnone : partsOf raw = [] <;> simp [hnone]

theorem covers_combinedFile :
    Covers promptCombinedFile True (fun cf => checked → CombinedReady cf)
      (combinedFileAnswers checked) := by
  refine covers_bind (covers_text checked) fun filename =>
    covers_map (covers_parts checked) fun parts => ?_
  rw [true_and, ← imp_and]
  exact imp_congr_right fun _ =>
    ⟨fun h => ⟨h.1, h.2.1, h.2.2⟩, fun h => ⟨h.1, h.2, h.3⟩⟩

/-- The loop over the combined files: turns that add one, and an answer that
ends it. -/
theorem covers_combinedTurns {I : List CombinedFile → Prop}
    {L : Language GoString}
    (hgo : ∀ files, Covers (promptCombinedFiles files) (I files)
      (Sum.elim I fun _ => False) L) :
    Covers (loop promptCombinedFiles []) (I []) I (L∗ * no) := by
  refine covers_loop (J := fun _ => True) (fun _ _ _ _ _ _ => trivial)
    (fun files _ => hgo files) (fun files _ => ?_) trivial
  refine covers_bind_one (covers_optPrompt fun v => ¬isYes v = true) fun more =>
    covers_ite_not ?_ (covers_pure Iff.rfl)
  intro s t b hyields
  obtain ⟨cf, u, -, hpure⟩ := yields_bind.mp hyields
  rw [(yields_pure.mp hpure).1]
  exact id

theorem covers_combinedFiles :
    Covers (loop promptCombinedFiles []) True
      (fun files => checked → ∀ cf ∈ files, CombinedReady cf)
      (combinedFilesAnswers checked) := by
  have hloop := covers_combinedTurns (I := fun files => checked →
      ∀ cf ∈ files, CombinedReady cf)
    (L := yes * combinedFileAnswers checked) fun files => ?_
  · refine hloop.congr ?_ fun _ _ _ _ => Iff.rfl
    simp
  · refine covers_bind (covers_optPrompt fun v => isYes v = true) fun more =>
      covers_ite (covers_map (covers_combinedFile checked) fun cf => ?_) ?_
    · simp only [Sum.elim_inl, List.forall_mem_append,
        List.forall_mem_singleton, imp_and]
    · simp

theorem covers_noCombinedFiles :
    Covers (loop promptCombinedFiles []) True (· = []) no := by
  have hloop := covers_combinedTurns (I := (· = []))
    (L := 0) fun files => covers_zero fun s t b hyields => ?_
  · rw [kstar_zero, one_mul] at hloop
    exact hloop.congr (by simp) fun _ _ _ _ => Iff.rfl
  · obtain ⟨more, u, -, hrest⟩ := yields_bind.mp hyields
    split at hrest
    · obtain ⟨cf, v, -, hpure⟩ := yields_bind.mp hrest
      rw [(yields_pure.mp hpure).1]
      simp
    · rw [(yields_pure.mp hrest).1]
      exact id

/-- The wizard of `cert_save`, by what its directory, each of its files and its
combined files are. -/
theorem covers_certSaveFields {D F : GoString → Prop}
    {C : List CombinedFile → Prop} {L M : Language GoString}
    (hdir : Covers mustPrompt True D L)
    (hcombined : Covers (loop promptCombinedFiles []) True C M) :
    Covers wizardCertSave True
      (fun a => D a.certDir ∧ (∀ f ∈ a.filenames, F f) ∧ C a.combinedFiles)
      (L * (optional F ^ 5 * M)) := by
  simp only [pow_succ, pow_zero, one_mul, mul_assoc]
  refine covers_bind hdir fun certDir =>
    covers_bind (covers_optPrompt F) fun certFile =>
    covers_bind (covers_optPrompt F) fun chainFile =>
    covers_bind (covers_optPrompt F) fun fullchainFile =>
    covers_bind (covers_optPrompt F) fun keyFile =>
    covers_bind (covers_optPrompt F) fun pkcs12File =>
    covers_map hcombined fun combinedFiles => ?_
  simp [SaveAction.filenames, and_assoc]

theorem covers_onlyIf {β : Type} {p : Prompt β} {Q : β → Prop}
    {L : Language GoString} (h : Covers p True Q L) :
    Covers p True (fun b => checked ∧ Q b) (onlyIf checked L) := by
  intro s t
  have hword : (∃ d ∈ onlyIf checked L, s.Reads d t) ↔
      checked ∧ ∃ d ∈ L, s.Reads d t :=
    ⟨fun ⟨d, ⟨hc, hd⟩, hread⟩ => ⟨hc, d, hd, hread⟩,
      fun ⟨hc, d, hd, hread⟩ => ⟨d, ⟨hc, hd⟩, hread⟩⟩
  have hyields := h s t
  rw [true_and] at hyields
  rw [true_and, hword, ← hyields]
  exact ⟨fun ⟨b, hb, hc, hQ⟩ => ⟨hc, b, hb, hQ⟩,
    fun ⟨hc, b, hb, hQ⟩ => ⟨b, hb, hc, hQ⟩⟩

variable (upper : Nat → Nat)

theorem yields_certSave {s t : Session GoString} {a : ActionConfig}
    (h : wizardCertSave.Yields s a t) : a.type = actionCertSave := by
  simp only [wizardCertSave, yields_bind, yields_pure] at h
  obtain ⟨_, _, -, _, _, -, _, _, -, _, _, -, _, _, -, _, _, -, _, _, -, rfl, -⟩ :=
    h
  rfl

theorem covers_scope :
    Covers optPrompt True
      (fun v => checked → (scopeOf v).trimSpace ∈ [[], lit "vdom", lit "global"])
      (optional fun v => checked → v ∈ [[], lit "vdom", lit "global"]) := by
  refine (covers_optPrompt _).congr Iff.rfl fun s t v h => ?_
  obtain ⟨rfl, -⟩ := yields_optPrompt h
  unfold scopeOf
  split
  · next hempty =>
    rw [hempty]
    exact imp_congr_right fun _ => by decide
  · rw [trimSpace_trimSpace]

theorem covers_certSave :
    Covers wizardCertSave True (fun a => checked → a.Accepted upper)
      (certSaveAnswers checked) := by
  have hall := covers_certSaveFields (F := anything) (covers_text checked)
    (covers_combinedFiles checked)
  have hnone := covers_certSaveFields (F := (· = []))
    (covers_mustPrompt anything) covers_noCombinedFiles
  refine (covers_sub hall (covers_onlyIf checked hnone)).congr Iff.rfl ?_
  intro s t a hyields
  have houtput : (a.filenames.any (· ≠ []) = true ∨ a.combinedFiles ≠ []) ↔
      ¬((∀ f ∈ a.filenames, f = []) ∧ a.combinedFiles = []) := by
    simp only [List.any_eq_true, decide_eq_true_eq, not_and_or, not_forall,
      exists_prop]
  rw [accepted_certSave (yields_certSave hyields), certSaveReady_iff, houtput]
  simp only [anything, implies_true, true_and]
  rw [imp_and, imp_and, not_and]
  exact ⟨fun ⟨⟨hdir, hcombined⟩, houtput⟩ => ⟨hdir, houtput, hcombined⟩,
    fun ⟨hdir, houtput, hcombined⟩ => ⟨⟨hdir, hcombined⟩, houtput⟩⟩

theorem covers_fortiOSBase :
    Covers promptFortiOSBase True (fun cfg => checked → FortiOSAccepted cfg)
      (fortiOSAnswers checked) := by
  unfold fortiOSAnswers
  simp only [mul_assoc]
  refine covers_bind (covers_text checked) fun host =>
    covers_bind (covers_text checked) fun accessToken =>
    covers_bind (covers_text checked) fun certName =>
    covers_bind (covers_scope checked) fun scope =>
    covers_bind (covers_optPrompt anything) fun insecure =>
    covers_map (covers_optPrompt anything) fun dryRun => ?_
  rw [fortiOSAccepted_iff]
  simp only [anything, and_true, true_and, imp_and, and_assoc]

theorem covers_method :
    Covers optPrompt True
      (fun v => checked → toUpper upper (methodOf upper v).trimSpace ∈
        [[], lit "PUT", lit "PATCH", lit "POST"])
      (optional fun v => checked → toUpper upper (toUpper upper v).trimSpace ∈
        [[], lit "PUT", lit "PATCH", lit "POST"]) := by
  refine (covers_optPrompt _).congr Iff.rfl fun s t v h => ?_
  unfold methodOf
  split
  · next hempty =>
    have htrim : (lit "PUT").trimSpace = lit "PUT" := by decide +kernel
    have hput : toUpper upper (lit "PUT") = lit "PUT" := by
      unfold toUpper
      rw [if_pos (by decide +kernel)]
      decide +kernel
    have hnone : toUpper upper (trimSpace []) = [] := rfl
    rw [hempty, htrim, hput, hnone]
    simp
  · exact Iff.rfl

theorem covers_update :
    Covers (promptProfileUpdate upper) True
      (fun u => checked → UpdateAccepted upper u)
      (updateAnswers checked upper) := by
  unfold updateAnswers
  simp only [mul_assoc]
  refine covers_bind (covers_text checked) fun path =>
    covers_bind (covers_optPrompt anything) fun mkey =>
    covers_bind (covers_text checked) fun field =>
    covers_map (covers_method checked upper) fun method => ?_
  rw [updateAccepted_iff]
  simp only [anything, and_true, true_and, imp_and, and_assoc]

/-! ## The whole wizard -/

/-- The wizard of each type covers the answers of that type. -/
theorem covers_wizardOf {t : GoString} {wizard : Prompt ActionConfig}
    (h : wizardOf upper t = some wizard) :
    Covers wizard True (fun a => checked → a.Accepted upper)
      (wizardAnswers checked upper t) := by
  unfold wizardOf at h
  unfold wizardAnswers
  split at h
  · next htype =>
    obtain rfl := Option.some.inj h
    rw [if_pos htype]
    exact covers_certSave checked upper
  next htype =>
  rw [if_neg htype]
  split at h
  · next htype =>
    obtain rfl := Option.some.inj h
    rw [if_pos htype]
    exact covers_map (covers_text checked) fun v => by
      rw [accepted_serviceRestart rfl, true_and]
  next htype =>
  rw [if_neg htype]
  split at h
  · next htype =>
    obtain rfl := Option.some.inj h
    rw [if_pos htype]
    exact covers_map (covers_text checked) fun v => by
      rw [accepted_exec rfl, true_and]
  next htype =>
  rw [if_neg htype]
  split at h
  · next htype =>
    obtain rfl := Option.some.inj h
    rw [if_pos htype]
    exact covers_map (covers_fortiOSBase checked) fun cfg => by
      rw [accepted_fortiOS (.inl rfl), true_and]
      simp
  next htype =>
  rw [if_neg htype]
  split at h
  · next htype =>
    obtain rfl := Option.some.inj h
    rw [if_pos htype]
    refine covers_bind (covers_fortiOSBase checked) fun cfg =>
      covers_map (covers_addAnother checked (covers_update checked upper))
        fun updates => ?_
    rw [accepted_replace rfl, true_and]
    simp only [Option.some.injEq, exists_eq_left', imp_and]
  next htype =>
  rw [if_neg htype]
  split at h
  · next htype =>
    obtain rfl := Option.some.inj h
    rw [if_pos htype]
    exact covers_map (covers_fortiOSBase checked) fun cfg => by
      rw [accepted_fortiOS (.inr rfl), true_and]
      simp
  · cases h

theorem wizardOf_eq_none_iff {t : GoString} :
    wizardOf upper t = none ↔ t ∉ actionTypes := by
  have hite : ∀ (c : Prop) [Decidable c] (w : Prompt ActionConfig)
      (o : Option (Prompt ActionConfig)),
      (if c then some w else o) = none ↔ ¬c ∧ o = none := by
    intro c _ w o
    by_cases hc : c <;> simp [hc]
  simp only [wizardOf, hite, actionTypes, List.mem_cons, List.not_mem_nil,
    not_or, or_false, and_true]

theorem wizardAnswers_of_none {t : GoString} (h : t ∉ actionTypes) :
    wizardAnswers checked upper t = 0 := by
  simp [actionTypes] at h
  simp [wizardAnswers, h]

theorem covers_action :
    Covers (loop (promptAction upper) ()) True
      (fun a => checked → a.Accepted upper) (actionAnswers checked upper) := by
  refine covers_loop (I := fun _ => True) (J := fun _ => True)
    (fun _ _ _ _ _ _ => trivial) (fun _ _ => ?_) (fun _ _ => ?_) trivial
  · refine covers_bind_one (covers_mustPrompt (· ∉ actionTypes)) fun t => ?_
    cases hwizard : wizardOf upper t with
    | some wizard =>
        have hknown : t ∈ actionTypes := by
          by_contra hunknown
          rw [(wizardOf_eq_none_iff upper).mpr hunknown] at hwizard
          cases hwizard
        refine (covers_none ?_).congr (by simp [hknown]) fun _ _ _ _ => Iff.rfl
        intro s t b hyields
        obtain ⟨a, u, -, hpure⟩ := yields_bind.mp hyields
        rw [(yields_pure.mp hpure).1]
        exact id
    | none =>
        exact covers_pure (by simp [(wizardOf_eq_none_iff upper).mp hwizard])
  · refine covers_bind_iSup (fun t => covers_mustPrompt (· = t)) fun t => ?_
    cases hwizard : wizardOf upper t with
    | some wizard =>
        exact covers_map (covers_wizardOf checked upper hwizard) fun a => by simp
    | none =>
        rw [wizardAnswers_of_none checked upper
          ((wizardOf_eq_none_iff upper).mp hwizard)]
        refine covers_zero fun s t b hyields => ?_
        rw [(yields_pure.mp hyields).1]
        exact id

theorem covers_runGenerateTask :
    Covers (runGenerateTask upper) True (fun task => checked → task.Accepted upper)
      (answers checked upper) := by
  refine covers_bind (covers_text checked) fun name =>
    covers_map (covers_addAnother checked (covers_action checked upper))
      fun actions => ?_
  rw [TaskConfig.accepted_iff]
  simp only [true_and, imp_and]

end Checked

section Results

variable (upper : Nat → Nat)

/-- Past the end of the input a required field is asked for without end. -/
theorem mustPrompt_spins {s : Session GoString} (h : s.lines = []) :
    ¬mustPrompt.Terminates s := by
  rintro ⟨v, t, hyields⟩
  exact (yields_mustPrompt hyields).2 h

/-- **When the wizard ends**: what the scanner hands out answers every required
question that comes up before it is used up. -/
theorem runGenerateTask_terminates_iff (lines : List GoString) :
    (runGenerateTask upper).Terminates (Session.start (scan lines)) ↔
      Session.Begins (scan lines) (answers False upper) := by
  have hcovers := fun t =>
    covers_runGenerateTask False upper (Session.start (scan lines)) t
  simp only [false_implies, and_true, true_and] at hcovers
  constructor
  · rintro ⟨task, t, hyields⟩
    obtain ⟨d, hd, hread⟩ := (hcovers t).mp ⟨task, hyields⟩
    exact ⟨d, hd, t, hread⟩
  · rintro ⟨d, hd, t, hread⟩
    obtain ⟨task, hyields⟩ := (hcovers t).mpr ⟨d, hd, hread⟩
    exact ⟨task, t, hyields⟩

/-- **When a generated task is accepted**: the answers that it was built from
begin with some that name known parts, scopes and methods, and a file for each
`cert_save`. -/
theorem generated_accepted_iff {lines : List GoString} {task : TaskConfig}
    {rest : Session GoString} {c : WorkerConfig}
    (hyields : (runGenerateTask upper).Yields (Session.start (scan lines)) task rest)
    (hport : c.port ≠ 0) (htasks : c.tasks = [task]) :
    (∃ c', c.validate upper = .ok c') ↔
      Session.Begins (scan lines) (answers True upper) := by
  have hcovers := fun t =>
    covers_runGenerateTask True upper (Session.start (scan lines)) t
  simp only [true_implies, true_and] at hcovers
  rw [validate_single_isOk hport htasks]
  constructor
  · intro haccepted
    obtain ⟨d, hd, hread⟩ := (hcovers rest).mp ⟨task, hyields, haccepted⟩
    exact ⟨d, hd, rest, hread⟩
  · rintro ⟨d, hd, t, hread⟩
    obtain ⟨task', hyields', haccepted⟩ := (hcovers t).mpr ⟨d, hd, hread⟩
    obtain ⟨rfl, -⟩ := hyields.unique hyields'
    exact haccepted

end Results

/-- On an empty input the wizard asks for the name of the task without end. -/
theorem wizard_spins_on_no_input :
    ¬∀ lines, (runGenerateTask id).Terminates (Session.start (scan lines)) := by
  intro h
  obtain ⟨task, t, hyields⟩ := h []
  obtain ⟨name, u, hname, -⟩ := yields_bind.mp hyields
  exact mustPrompt_spins rfl ⟨name, u, hname⟩

/-- A question in front of lines that begin with an answer. -/
theorem mustPrompt_cons {line : GoString} {lines : List GoString} {n : Nat}
    (hline : line.trimSpace ≠ []) {v : GoString} {t : Session GoString}
    (h : mustPrompt.Yields ⟨line :: lines, n⟩ v t) :
    v = line.trimSpace ∧ t = ⟨lines, n + 1⟩ := by
  rcases mustPrompt_next h with ⟨-, hv, ht⟩ | ⟨hblank, -⟩
  · exact ⟨hv, ht⟩
  · exact absurd hblank hline

/-- Behind a line that does not fit, one answer is left at most. -/
theorem mustPrompt_long {part : GoString} {n : Nat} {v : GoString}
    {t : Session GoString} (h : mustPrompt.Yields ⟨[[], part], n⟩ v t) :
    t.lines = [] := by
  rcases mustPrompt_next h with ⟨hblank, -, -⟩ | ⟨-, h⟩
  · exact absurd rfl hblank
  · rcases mustPrompt_next h with ⟨-, -, rfl⟩ | ⟨-, h⟩
    · rfl
    · exact absurd rfl (yields_mustPrompt h).2

/-- **A line that is too long.**  A FortiOS host of 65536 bytes or more stops the
scanner, and the wizard asks for the access token without end, whatever stands
behind the host. -/
theorem wizard_spins_on_long_host (upper : Nat → Nat) {host : GoString}
    (hlong : maxScanTokenSize ≤ host.length) (rest : List GoString) :
    ¬(runGenerateTask upper).Terminates (Session.start
      (scan ([lit "renewal", lit "fortios_upload"] ++ host :: rest))) := by
  have hfits : ∀ line ∈ [lit "renewal", lit "fortios_upload"],
      line.length < maxScanTokenSize := by decide
  have hwizard : wizardOf upper (lit "fortios_upload").trimSpace =
      some wizardFortiOS := by
    unfold wizardOf
    rw [show (lit "fortios_upload").trimSpace = actionFortiOSUpload by
      decide +kernel]
    rw [if_neg (by decide), if_neg (by decide), if_neg (by decide), if_pos rfl]
  rw [scan_append hfits, scan_of_long hlong]
  rintro ⟨task, t, h⟩
  obtain ⟨name, u, hname, h⟩ := yields_bind.mp h
  obtain ⟨-, rfl⟩ := mustPrompt_cons (by decide +kernel) hname
  obtain ⟨actions, _, hactions, -⟩ := yields_bind.mp h
  obtain ⟨_, _, hturn⟩ := hactions.first_turn
  obtain ⟨action, _, haction, -⟩ := yields_bind.mp hturn
  obtain ⟨_, _, hturn⟩ := haction.first_turn
  obtain ⟨type, u, htype, hturn⟩ := yields_bind.mp hturn
  obtain ⟨rfl, rfl⟩ := mustPrompt_cons (by decide +kernel) htype
  rw [hwizard] at hturn
  obtain ⟨_, _, hfortiOS, -⟩ := yields_bind.mp hturn
  obtain ⟨_, _, hbase, -⟩ := yields_bind.mp hfortiOS
  obtain ⟨_, u, hhost, hbase⟩ := yields_bind.mp hbase
  obtain ⟨token, v, htoken, -⟩ := yields_bind.mp hbase
  exact mustPrompt_spins (mustPrompt_long hhost) ⟨token, v, htoken⟩

private def execLines : List GoString := [lit "renewal", lit "exec", lit "true"]

private def execTask : TaskConfig :=
  ⟨lit "renewal", [{ newAction actionExec with command := lit "true" }]⟩

theorem generated_accepted_iff_exec :
    (∃ c', (WorkerConfig.mk 1 8080 [] [execTask]).validate id = .ok c') ↔
      Session.Begins (scan execLines) (answers True id) := by
  have hyields : (runGenerateTask id).Yields (Session.start (scan execLines))
      execTask ⟨[], 4⟩ := ⟨2, by decide +kernel⟩
  exact generated_accepted_iff id hyields (by decide) rfl

private def saveLines : List GoString :=
  [lit "renewal", lit "cert_save", lit "/etc/certs"]

private def saveTask : TaskConfig :=
  ⟨lit "renewal",
    [{ newAction actionCertSave with certDir := lit "/etc/certs" }]⟩

/-- A `cert_save` action that writes no file is built, and refused. -/
theorem generated_without_output :
    ¬∀ (lines : List GoString) (task : TaskConfig) (rest : Session GoString)
      (c : WorkerConfig),
      (runGenerateTask id).Yields (Session.start (scan lines)) task rest →
        c.port ≠ 0 → c.tasks = [task] → ∃ c', c.validate id = .ok c' := by
  intro h
  have hyields : (runGenerateTask id).Yields (Session.start (scan saveLines))
      saveTask ⟨[], 10⟩ := ⟨2, by decide +kernel⟩
  have hrefused : ((WorkerConfig.mk 1 8080 [] [saveTask]).validate id).toBool =
      false := by decide +kernel
  obtain ⟨c', hc'⟩ := h saveLines saveTask _ ⟨1, 8080, [], [saveTask]⟩ hyields
    (by decide) rfl
  rw [hc'] at hrefused
  cases hrefused

end Hdns.Ports.Wizard

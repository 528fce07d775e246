import Hdns.Ports.TaskConfigs
import Hdns.Verified.Base64
import Hdns.Verified.MapOrder
import Hdns.Verified.Script

/-!
# What a `cert_save` action leaves in its directory

`save` decodes the PKCS#12 text, then goes through its outputs and looks for the
content of each when its turn comes.  Seen as a script, an action has a step for
each output: a write, or a stop where the payload lacks the content.  An output
whose name is nothing but white space has no step, although the checks of the
configuration take it for configured.

## Main results

* `save_all_or_nothing_iff` — when an incomplete payload leaves all files as
  they were.
* `saved_outputs_iff` — when a successful action has left every configured
  output in its file.
* `pkcs12_uninfluential_iff` — when PKCS#12 data has no influence on an action
  without a PKCS#12 file.
-/

namespace Hdns.Ports.SaveOutcome

open Hdns.Verified
open Hdns.Verified.GoString
open Hdns.Verified.Overwrite (outcome carriedOut)
open Hdns.Verified.Script
open Hdns.Ports.Webhook
open Hdns.Ports.Worker
open Hdns.Ports.TaskConfigs

/-! ## `save` as a script -/

/-- The step of an entry. -/
def entryStep (dir : GoString) (e : FileEntry) :
    Step SaveError GoString GoString :=
  if e.filename.trimSpace = [] then .skip
  else if e.content = [] then .stop (.payloadContainsNo e.field)
  else
    let dest := GoPath.join [dir, e.filename]
    .write (.write e.field dest) dest e.content

/-- The step of a combined file. -/
def combinedStep (dir : GoString) (payload : Payload) (cf : CombinedFile) :
    Step SaveError GoString GoString :=
  match combinedContent payload cf with
  | .error err => .stop err
  | .ok content =>
      .write (.writeCombined cf.filename) (GoPath.join [dir, cf.filename])
        content

/-- The steps of an action. -/
def saveScript (decodeString : GoString → Except GoString GoString)
    (action : SaveAction) (payload : Payload) :
    List (Step SaveError GoString GoString) :=
  let dir := GoPath.clean action.certDir
  match pkcs12Bytes decodeString payload with
  | .error err => [.stop err]
  | .ok pkcs12 =>
      (entries action payload pkcs12).map (entryStep dir) ++
        action.combinedFiles.map (combinedStep dir payload)

theorem saveEntry_eq (dir : GoString) (e : FileEntry) :
    saveEntry dir e = (entryStep dir e).run .writeFile := by
  unfold saveEntry entryStep
  by_cases hname : e.filename.trimSpace = []
  · rw [if_pos hname, if_pos hname]
    rfl
  rw [if_neg hname, if_neg hname]
  by_cases hcontent : e.content = []
  · rw [if_pos hcontent, if_pos hcontent]
    rfl
  · rw [if_neg hcontent, if_neg hcontent]
    rfl

theorem saveCombined_eq (dir : GoString) (payload : Payload)
    (cf : CombinedFile) :
    saveCombined dir payload cf =
      (combinedStep dir payload cf).run .writeFile := by
  unfold saveCombined combinedStep
  cases combinedContent payload cf with
  | error err => rfl
  | ok content => rfl

section Action

variable {decodeString : GoString → Except GoString GoString}
  {action : SaveAction} {payload : Payload}

/-- **`save` runs its script** once the directory is there. -/
theorem save_eq :
    save decodeString action payload =
      mkdirAll (GoPath.clean action.certDir) >>= fun _ =>
        runAll .writeFile (saveScript decodeString action payload) := by
  unfold save saveScript
  cases pkcs12Bytes decodeString payload with
  | error err => rfl
  | ok pkcs12 =>
      dsimp only
      rw [runAll_append, ← forM_eq_runAll Call.writeFile (saveEntry_eq _),
        ← forM_eq_runAll Call.writeFile (saveCombined_eq _ payload)]
      rfl

variable (decodeString action payload)

/-- **How `save` ends**: in the directory, in a write, or with its script
finished. -/
theorem save_ends (o : Oracle Call) (s : Sys Files) :
    (save decodeString action payload).wp o s fun r t =>
      r = .error (.createDirectory (GoPath.clean action.certDir)) ∨
      (∃ err, r = .error err ∧
        Refusal (saveScript decodeString action payload) err) ∨
      r = (stopped (saveScript decodeString action payload)).elim (.ok ())
          .error ∧
        Finished (saveScript decodeString action payload)
          ⟨s.state, s.clock + 1⟩ t := by
  rw [save_eq]
  have hdir : (mkdirAll (GoPath.clean action.certDir)).wp o s fun r t =>
      r = .error (.createDirectory (GoPath.clean action.certDir)) ∨
        r = .ok () ∧ t = ⟨s.state, s.clock + 1⟩ :=
    Prog.wp_call_of (.inr ⟨rfl, rfl⟩) (fun _ => .inl rfl) fun _ => .inl rfl
  refine Prog.wp_bind_of hdir ?_ ?_
  · rintro err t (hr | ⟨hr, -⟩)
    · exact .inl (congrArg _ (Except.error.inj hr))
    · cases hr
  · rintro u t (hr | ⟨-, rfl⟩)
    · cases hr
    · exact Prog.wp_mono (runAll_ends Call.writeFile o _ _) fun _ _ => .inr

theorem save_quiet (s : Sys Files) :
    (save decodeString action payload).wp .quiet s fun r t =>
      r = (stopped (saveScript decodeString action payload)).elim (.ok ())
          .error ∧
        Finished (saveScript decodeString action payload)
          ⟨s.state, s.clock + 1⟩ t := by
  rw [save_eq, mkdirAll, Prog.wp_bind, Prog.wp_call_quiet]
  exact runAll_quiet Call.writeFile _ ⟨s.state, s.clock + 1⟩

end Action

/-! ## Errors about the payload -/

/-- The payload lacks something, or its PKCS#12 text is none. -/
def aboutPayload : SaveError → Bool
  | .decodePKCS12 _ | .payloadContainsNo _ | .combinedContainsNo _ _ => true
  | _ => false

/-- The stops of a script are errors about the payload, and its refusals are
not. -/
def Sorted (step : Step SaveError GoString GoString) : Prop :=
  match step with
  | .skip => True
  | .write err _ _ => aboutPayload err = false
  | .stop err => aboutPayload err = true

theorem entryStep_sorted (dir : GoString) (e : FileEntry) :
    Sorted (entryStep dir e) := by
  unfold entryStep
  split
  · exact trivial
  split
  · rfl
  · rfl

/-! ## The content of an output -/

/-- The payload has nothing but white space for the part. -/
def lacks (payload : Payload) (part : GoString) : Bool :=
  (partContent payload part).trimSpace = []

/-- The parts one after the other, each with its trailing newlines replaced by
one. -/
def bundle (payload : Payload) (parts : List GoString) : GoString :=
  parts.flatMap fun part => trimNewlines (partContent payload part) ++ lit "\n"

/-- The content of a combined file, in one piece. -/
theorem combinedContent_eq (payload : Payload) (cf : CombinedFile) :
    combinedContent payload cf =
      (cf.parts.find? (lacks payload)).elim (.ok (bundle payload cf.parts))
        fun part => .error (.combinedContainsNo cf.filename part) := by
  have hloop : ∀ (parts : List GoString) (buf : GoString),
      parts.foldlM (fun buf part =>
        let piece := partContent payload part
        if piece.trimSpace = [] then
          Except.error (SaveError.combinedContainsNo cf.filename part)
        else .ok (buf ++ trimNewlines piece ++ lit "\n")) buf =
      (parts.find? (lacks payload)).elim (.ok (buf ++ bundle payload parts))
        fun part => .error (.combinedContainsNo cf.filename part) := by
    intro parts
    induction parts with
    | nil =>
        intro buf
        rw [bundle, List.flatMap_nil, List.append_nil]
        rfl
    | cons part parts ih =>
        intro buf
        rw [List.foldlM_cons, List.find?_cons]
        by_cases hblank : (partContent payload part).trimSpace = []
        · have hlacks : lacks payload part = true := decide_eq_true hblank
          simp only [hblank, hlacks, if_true]
          rfl
        · have hlacks : lacks payload part = false := decide_eq_false hblank
          simp only [hblank, hlacks, if_false]
          refine (ih _).trans ?_
          rw [bundle, bundle, List.flatMap_cons]
          simp only [List.append_assoc]
  exact hloop cf.parts []

/-- The outputs that `save` looks for, in order, each by whether the payload
has its content. -/
def outputsFound (action : SaveAction) (payload : Payload)
    (pkcs12 : GoString) : List Bool :=
  ((entries action payload pkcs12).filter fun e =>
      e.filename.trimSpace ≠ []).map (fun e => decide (e.content ≠ [])) ++
    action.combinedFiles.map fun cf => !cf.parts.any (lacks payload)

section Kinds

variable {decodeString : GoString → Except GoString GoString}
  {action : SaveAction} {payload : Payload}

private theorem kinds_entries (dir : GoString) (es : List FileEntry) :
    kinds (es.map (entryStep dir)) =
      (es.filter fun e => e.filename.trimSpace ≠ []).map fun e =>
        decide (e.content ≠ []) := by
  induction es with
  | nil => rfl
  | cons e es ih =>
      rw [kinds] at ih ⊢
      rw [List.map_cons, List.filterMap_cons, ih, entryStep]
      by_cases hname : e.filename.trimSpace = []
      · simp [hname, Step.kind]
      by_cases hcontent : e.content = []
      · simp [hname, hcontent, Step.kind]
      · simp [hname, hcontent, Step.kind]

theorem combinedStep_eq (dir : GoString) (payload : Payload)
    (cf : CombinedFile) :
    combinedStep dir payload cf =
      (cf.parts.find? (lacks payload)).elim
        (.write (.writeCombined cf.filename) (GoPath.join [dir, cf.filename])
          (bundle payload cf.parts))
        fun part => .stop (.combinedContainsNo cf.filename part) := by
  rw [combinedStep, combinedContent_eq]
  cases cf.parts.find? (lacks payload) with
  | none => rfl
  | some part => rfl

private theorem kinds_combined (dir : GoString) (cfs : List CombinedFile) :
    kinds (cfs.map (combinedStep dir payload)) =
      cfs.map fun cf => !cf.parts.any (lacks payload) := by
  induction cfs with
  | nil => rfl
  | cons cf cfs ih =>
      rw [kinds] at ih ⊢
      rw [List.map_cons, List.filterMap_cons, ih, combinedStep_eq]
      cases hfind : cf.parts.find? (lacks payload) with
      | none =>
          have hany : cf.parts.any (lacks payload) = false := by
            simpa [List.find?_eq_none] using hfind
          simp [hany, Step.kind]
      | some part =>
          have hany : cf.parts.any (lacks payload) = true :=
            List.any_eq_true.mpr ⟨part, List.mem_of_find?_eq_some hfind,
              List.find?_some hfind⟩
          simp [hany, Step.kind]

/-- The script of a payload whose PKCS#12 text decodes. -/
theorem saveScript_ok {pkcs12 : GoString}
    (h : pkcs12Bytes decodeString payload = .ok pkcs12) :
    saveScript decodeString action payload =
      (entries action payload pkcs12).map
          (entryStep (GoPath.clean action.certDir)) ++
        action.combinedFiles.map
          (combinedStep (GoPath.clean action.certDir) payload) := by
  rw [saveScript, h]

theorem kinds_saveScript {pkcs12 : GoString}
    (h : pkcs12Bytes decodeString payload = .ok pkcs12) :
    kinds (saveScript decodeString action payload) =
      outputsFound action payload pkcs12 := by
  rw [saveScript_ok h, kinds, List.filterMap_append]
  exact congrArg₂ _ (kinds_entries _ _) (kinds_combined _ _)

theorem pkcs12Bytes_error {err : SaveError}
    (h : pkcs12Bytes decodeString payload = .error err) :
    ∃ text, err = .decodePKCS12 text := by
  unfold pkcs12Bytes at h
  dsimp only at h
  generalize (if payload.pkcs12Base64.trimSpace = [] then payload.pkcs12
    else payload.pkcs12Base64) = raw at h
  split at h
  · cases hdecoded : decodeString raw with
    | error text =>
        rw [hdecoded] at h
        exact ⟨text, (Except.error.inj h).symm⟩
    | ok bytes =>
        rw [hdecoded] at h
        cases h
  · cases h

/-- Every script is sorted. -/
theorem saveScript_sorted :
    ∀ step ∈ saveScript decodeString action payload, Sorted step := by
  cases h : pkcs12Bytes decodeString payload with
  | error err =>
      rw [saveScript, h]
      obtain ⟨text, rfl⟩ := pkcs12Bytes_error h
      intro step hstep
      rw [List.mem_singleton.mp hstep]
      rfl
  | ok pkcs12 =>
      rw [saveScript_ok h]
      intro step hstep
      rcases List.mem_append.mp hstep with hstep | hstep
      · obtain ⟨e, -, rfl⟩ := List.mem_map.mp hstep
        exact entryStep_sorted _ e
      · obtain ⟨cf, -, rfl⟩ := List.mem_map.mp hstep
        rw [combinedStep_eq]
        cases cf.parts.find? (lacks payload) with
        | none => rfl
        | some part => rfl

end Kinds

/-! ## All or nothing -/

section AllOrNothing

variable (decodeString : GoString → Except GoString GoString)
  (action : SaveAction) (payload : Payload)

/-- An error about the payload leaves all files as they were. -/
def AllOrNothing : Prop :=
  ∀ o s, (save decodeString action payload).wp o s fun r t =>
    ∀ err, r = .error err → aboutPayload err = true → t.state = s.state

/-- If the payload has the content of the first output, it has that of all. -/
def FirstDecides : Prop :=
  ∀ pkcs12, pkcs12Bytes decodeString payload = .ok pkcs12 →
    (outputsFound action payload pkcs12).head? = some true →
      ∀ found ∈ outputsFound action payload pkcs12, found = true

variable {decodeString action payload}

/-- A script that stops has written nothing before, or some files are not what
they were. -/
theorem allOrNothing_iff_script :
    AllOrNothing decodeString action payload ↔
      stopped (saveScript decodeString action payload) = none ∨
        writes (saveScript decodeString action payload) = [] := by
  constructor
  · intro h
    cases hstop : stopped (saveScript decodeString action payload) with
    | none => exact .inl rfl
    | some err =>
        right
        obtain ⟨hr, hfiles, -⟩ :=
          save_quiet decodeString action payload ⟨fun _ => none, 0⟩
        rw [hstop] at hr
        have hsame := h .quiet ⟨fun _ => none, 0⟩ err hr
          (saveScript_sorted _ (mem_of_stopped hstop))
        rw [hsame] at hfiles
        refine List.eq_nil_iff_forall_not_mem.mpr fun w hw => ?_
        have hcell := congrFun hfiles.symm w.1
        rw [Overwrite.carriedOut_apply, Option.or_none,
          Overwrite.outcome_eq_none_iff] at hcell
        exact hcell w hw rfl
  · intro h o s
    refine Prog.wp_mono (save_ends _ _ _ o s) ?_
    rintro r t (rfl | ⟨err, rfl, href⟩ | ⟨hr, hfiles, -⟩) err' herr habout
    · obtain rfl := Except.error.inj herr
      cases habout
    · obtain rfl := Except.error.inj herr
      obtain ⟨key, value, hmem⟩ := href
      have hnot : aboutPayload err = false := saveScript_sorted _ hmem
      rw [hnot] at habout
      cases habout
    · rcases h with hnone | hempty
      · rw [hr, hnone] at herr
        cases herr
      · rw [hfiles, hempty]
        rfl

/-- **When `save` is all or nothing**: the PKCS#12 text does not decode, or
the payload has all content or lacks that of the first output. -/
theorem save_all_or_nothing_iff
    (decodeString : GoString → Except GoString GoString) (action : SaveAction)
    (payload : Payload) :
    AllOrNothing decodeString action payload ↔
      FirstDecides decodeString action payload := by
  rw [allOrNothing_iff_script, stopped_eq_none_iff, writes_eq_nil_iff]
  cases h : pkcs12Bytes decodeString payload with
  | error err =>
      refine iff_of_true (.inr ?_) fun pkcs12 hpkcs12 => ?_
      · rw [saveScript, h]
        exact Bool.false_ne_true ∘ Option.some.inj
      · rw [h] at hpkcs12
        cases hpkcs12
  | ok pkcs12 =>
      rw [kinds_saveScript h]
      constructor
      · rintro hor pkcs12' hpkcs12' hfirst
        obtain rfl := Except.ok.inj (h.symm.trans hpkcs12')
        exact hor.resolve_right (not_not_intro hfirst)
      · intro hdecides
        by_cases hfirst : (outputsFound action payload pkcs12).head? = some true
        · exact .inl (hdecides pkcs12 h hfirst)
        · exact .inr hfirst

end AllOrNothing

private def pemAction : SaveAction :=
  ⟨"/etc/ssl", "cert.pem", [], [], "key.pem", [], []⟩

/-- A certificate without its key. -/
private def keyless : Payload := { Payload.zero with cert := "new" }

/-- An old certificate and its key. -/
private def renewed : Sys Files := ⟨fun _ => some "old", 0⟩

/-- The certificate is overwritten, and then the key is found to be missing. -/
theorem new_certificate_beside_old_key :
    (save Base64.decodeString pemAction keyless .quiet renewed).1 =
        .error (.payloadContainsNo "private_key") ∧
      (save Base64.decodeString pemAction keyless .quiet renewed).2.state
        "/etc/ssl/cert.pem" = some "new" ∧
      ¬AllOrNothing Base64.decodeString pemAction keyless := by
  have herr : (save Base64.decodeString pemAction keyless .quiet renewed).1 =
      .error (.payloadContainsNo "private_key") := by decide +kernel
  have hcert : (save Base64.decodeString pemAction keyless .quiet
      renewed).2.state "/etc/ssl/cert.pem" = some "new" := by decide +kernel
  refine ⟨herr, hcert, fun h => ?_⟩
  have hsame := h .quiet renewed _ herr rfl
  rw [hsame] at hcert
  revert hcert
  decide +kernel

/-! ## The configured outputs -/

/-- The outputs whose names pass a test, with their contents. -/
def outputs (named : GoString → Bool) (action : SaveAction) (payload : Payload)
    (pkcs12 : GoString) : List Write :=
  let dir := GoPath.clean action.certDir
  ((entries action payload pkcs12).filter fun e => named e.filename).map
      (fun e => (GoPath.join [dir, e.filename], e.content)) ++
    action.combinedFiles.map fun cf =>
      (GoPath.join [dir, cf.filename], bundle payload cf.parts)

/-- What the checks of the configuration take for an output. -/
def configuredOutputs : SaveAction → Payload → GoString → List Write :=
  outputs fun filename => filename ≠ []

/-- What `save` writes. -/
def writtenOutputs : SaveAction → Payload → GoString → List Write :=
  outputs fun filename => filename.trimSpace ≠ []

theorem writtenOutputs_subset (action : SaveAction) (payload : Payload)
    (pkcs12 : GoString) :
    writtenOutputs action payload pkcs12 ⊆
      configuredOutputs action payload pkcs12 := by
  intro w hw
  rcases List.mem_append.mp hw with hw | hw
  · obtain ⟨e, he, rfl⟩ := List.mem_map.mp hw
    obtain ⟨hmem, hname⟩ := List.mem_filter.mp he
    refine List.mem_append_left _ (List.mem_map.mpr ⟨e, ?_, rfl⟩)
    refine List.mem_filter.mpr ⟨hmem, decide_eq_true fun hempty => ?_⟩
    rw [hempty] at hname
    cases hname
  · exact List.mem_append_right _ hw

section Outputs

variable {decodeString : GoString → Except GoString GoString}
  {action : SaveAction} {payload : Payload}

private theorem writes_entries (dir : GoString)
    (rest : List (Step SaveError GoString GoString)) :
    ∀ es : List FileEntry, stopped (es.map (entryStep dir) ++ rest) = none →
      writes (es.map (entryStep dir) ++ rest) =
        ((es.filter fun e => e.filename.trimSpace ≠ []).map fun e =>
          (GoPath.join [dir, e.filename], e.content)) ++ writes rest ∧
        stopped rest = none := by
  intro es
  induction es with
  | nil => exact fun h => ⟨rfl, h⟩
  | cons e es ih =>
      intro h
      rw [List.map_cons, List.cons_append, entryStep] at h ⊢
      by_cases hname : e.filename.trimSpace = []
      · rw [if_pos hname] at h ⊢
        simpa [hname] using ih h
      by_cases hcontent : e.content = []
      · rw [if_neg hname, if_pos hcontent] at h
        cases h
      · rw [if_neg hname, if_neg hcontent] at h ⊢
        obtain ⟨hwrites, hrest⟩ := ih h
        exact ⟨by simp [hname, hwrites], hrest⟩

private theorem writes_combined (dir : GoString) :
    ∀ cfs : List CombinedFile,
      stopped (cfs.map (combinedStep dir payload)) = none →
        writes (cfs.map (combinedStep dir payload)) = cfs.map fun cf =>
          (GoPath.join [dir, cf.filename], bundle payload cf.parts) := by
  intro cfs
  induction cfs with
  | nil => exact fun _ => rfl
  | cons cf cfs ih =>
      intro h
      rw [List.map_cons, combinedStep_eq] at h ⊢
      cases hfind : cf.parts.find? (lacks payload) with
      | none =>
          rw [hfind] at h
          rw [List.map_cons, ← ih h]
          rfl
      | some part =>
          rw [hfind] at h
          cases h

/-- **A script that ends** has written its outputs in order. -/
theorem writes_saveScript {pkcs12 : GoString}
    (h : pkcs12Bytes decodeString payload = .ok pkcs12)
    (hends : stopped (saveScript decodeString action payload) = none) :
    writes (saveScript decodeString action payload) =
      writtenOutputs action payload pkcs12 := by
  rw [saveScript_ok h] at hends ⊢
  obtain ⟨hwrites, hrest⟩ := writes_entries _ _ _ hends
  rw [hwrites, writes_combined _ _ hrest]
  rfl

end Outputs

/-! ## A successful action -/

section Successful

variable (decodeString : GoString → Except GoString GoString)
  (action : SaveAction) (payload : Payload)

/-- When `save` returns nil, it has made more calls than the one for the
directory, and every configured output is in its file. -/
def SavesAll : Prop :=
  ∀ o s t, save decodeString action payload o s = (.ok (), t) →
    s.clock + 1 < t.clock ∧
      ∀ pkcs12, pkcs12Bytes decodeString payload = .ok pkcs12 →
        ∀ w ∈ configuredOutputs action payload pkcs12, t.state w.1 = some w.2

/-- If the payload is complete, something is written to the file of every
configured output, and nothing else than its content. -/
def KeepsApart : Prop :=
  ∀ pkcs12, pkcs12Bytes decodeString payload = .ok pkcs12 →
    (∀ found ∈ outputsFound action payload pkcs12, found = true) →
      ∀ w ∈ configuredOutputs action payload pkcs12,
        (∃ w' ∈ writtenOutputs action payload pkcs12, w'.1 = w.1) ∧
          ∀ w' ∈ writtenOutputs action payload pkcs12, w'.1 = w.1 → w'.2 = w.2

variable {decodeString action payload}

/-- **A run that returns nil** has carried out the writes of the outputs. -/
theorem save_ok {o : Oracle Call} {s t : Sys Files}
    (h : save decodeString action payload o s = (.ok (), t)) :
    ∃ pkcs12, pkcs12Bytes decodeString payload = .ok pkcs12 ∧
      (∀ found ∈ outputsFound action payload pkcs12, found = true) ∧
      t.state = carriedOut (writtenOutputs action payload pkcs12) s.state ∧
      t.clock = s.clock + 1 + (writtenOutputs action payload pkcs12).length := by
  have hends := save_ends decodeString action payload o s
  rw [Prog.wp, h] at hends
  rcases hends with hdir | ⟨err, herr, -⟩ | ⟨hr, hfiles, hclock⟩
  · cases hdir
  · cases herr
  have hstop : stopped (saveScript decodeString action payload) = none := by
    cases hstop : stopped (saveScript decodeString action payload) with
    | none => rfl
    | some err =>
        rw [hstop] at hr
        cases hr
  cases hpkcs12 : pkcs12Bytes decodeString payload with
  | error err =>
      rw [saveScript, hpkcs12] at hstop
      cases hstop
  | ok pkcs12 =>
      rw [writes_saveScript hpkcs12 hstop] at hfiles hclock
      rw [stopped_eq_none_iff, kinds_saveScript hpkcs12] at hstop
      exact ⟨pkcs12, rfl, hstop, hfiles, hclock⟩

/-- A complete payload is saved if nothing goes wrong. -/
theorem save_complete {pkcs12 : GoString}
    (hpkcs12 : pkcs12Bytes decodeString payload = .ok pkcs12)
    (hfound : ∀ found ∈ outputsFound action payload pkcs12, found = true)
    (s : Sys Files) :
    ∃ t, save decodeString action payload .quiet s = (.ok (), t) ∧
      t.state = carriedOut (writtenOutputs action payload pkcs12) s.state := by
  have hstop : stopped (saveScript decodeString action payload) = none := by
    rw [stopped_eq_none_iff, kinds_saveScript hpkcs12]
    exact hfound
  have hquiet := save_quiet decodeString action payload s
  rw [hstop] at hquiet
  unfold Prog.wp at hquiet
  generalize save decodeString action payload .quiet s = result at hquiet ⊢
  obtain ⟨r, t⟩ := result
  obtain ⟨rfl, hfiles, -⟩ := hquiet
  rw [writes_saveScript hpkcs12 hstop] at hfiles
  exact ⟨t, rfl, hfiles⟩

/-- Where outputs are kept apart, their files hold them. -/
theorem saved_of_keepsApart {ws : List Write} {w : Write} {files : Files}
    (hsome : ∃ w' ∈ ws, w'.1 = w.1) (hsame : ∀ w' ∈ ws, w'.1 = w.1 → w'.2 = w.2) :
    carriedOut ws files w.1 = some w.2 := by
  rw [Overwrite.carriedOut_apply]
  cases hout : outcome ws w.1 with
  | none =>
      obtain ⟨w', hw', hpath⟩ := hsome
      exact absurd hpath (Overwrite.outcome_eq_none_iff.mp hout w' hw')
  | some content =>
      have hmem := Overwrite.mem_of_outcome hout
      exact congrArg some (hsame (w.1, content) hmem rfl)

/-- **When `save` saves all**, for an action with an output. -/
theorem savesAll_iff (houtput : ∀ pkcs12,
      configuredOutputs action payload pkcs12 ≠ []) :
    SavesAll decodeString action payload ↔
      KeepsApart decodeString action payload := by
  constructor
  · intro h pkcs12 hpkcs12 hfound w hw
    obtain ⟨t, hrun, hfiles⟩ := save_complete hpkcs12 hfound ⟨fun _ => none, 0⟩
    obtain ⟨-, hsaved⟩ := h .quiet ⟨fun _ => none, 0⟩ t hrun
    -- the files hold what was written, and nothing else was there
    have hheld : ∀ w ∈ configuredOutputs action payload pkcs12,
        outcome (writtenOutputs action payload pkcs12) w.1 = some w.2 := by
      intro w hw
      have hcell := hsaved pkcs12 hpkcs12 w hw
      rwa [hfiles, Overwrite.carriedOut_apply, Option.or_none] at hcell
    refine ⟨⟨_, Overwrite.mem_of_outcome (hheld w hw), rfl⟩, ?_⟩
    intro w' hw' hpath
    have hboth := hheld w' (writtenOutputs_subset _ _ _ hw')
    rw [hpath, hheld w hw] at hboth
    exact (Option.some.inj hboth).symm
  · intro h o s t hrun
    obtain ⟨pkcs12, hpkcs12, hfound, hfiles, hclock⟩ := save_ok hrun
    have hapart := h pkcs12 hpkcs12 hfound
    constructor
    · obtain ⟨w, hw⟩ := List.exists_mem_of_ne_nil _ (houtput pkcs12)
      obtain ⟨⟨w', hw', -⟩, -⟩ := hapart w hw
      have hpos := List.length_pos_of_mem hw'
      omega
    · intro pkcs12' hpkcs12' w hw
      obtain rfl := Except.ok.inj (hpkcs12.symm.trans hpkcs12')
      obtain ⟨hsome, hsame⟩ := hapart w hw
      rw [hfiles]
      exact saved_of_keepsApart hsome hsame

end Successful

/-- An action that has passed the checks has an output. -/
theorem configuredOutputs_ne_nil {action : SaveAction}
    (h : CertSaveReady action) (payload : Payload) (pkcs12 : GoString) :
    configuredOutputs action payload pkcs12 ≠ [] := by
  intro hnone
  obtain ⟨hentries, hcombined⟩ := List.append_eq_nil_iff.mp hnone
  rw [List.map_eq_nil_iff] at hentries hcombined
  rcases h.output with hname | hsome
  · obtain ⟨name, hname, hset⟩ := List.any_eq_true.mp hname
    have hnames : (entries action payload pkcs12).map FileEntry.filename =
        action.filenames := rfl
    rw [← hnames] at hname
    obtain ⟨e, he, rfl⟩ := List.mem_map.mp hname
    exact List.filter_eq_nil_iff.mp hentries e he hset
  · exact hsome hcombined

/-- **Which accepted actions save all** they are configured to save. -/
theorem saved_outputs_iff {upper : Nat → Nat} {c c' : WorkerConfig}
    (h : c.validate upper = .ok c') {t : TaskConfig} (ht : t ∈ c'.tasks)
    {a : ActionConfig} (ha : a ∈ t.actions) (htype : a.type = actionCertSave)
    (decodeString : GoString → Except GoString GoString) (payload : Payload) :
    SavesAll decodeString a.toSaveAction payload ↔
      KeepsApart decodeString a.toSaveAction payload := by
  have hready := validate_ready h t ht a ha
  exact savesAll_iff
    (configuredOutputs_ne_nil (hready.certSaveReady htype) payload)

/-- A configuration with one `cert_save` action. -/
private def configOf (action : SaveAction) : WorkerConfig :=
  ⟨1, 8080, "secret", [⟨"deploy",
    [⟨action, actionCertSave, [], [], none, []⟩]⟩]⟩

private def pair : Payload :=
  { Payload.zero with cert := "cert", privateKey := "key" }

theorem saved_outputs_iff_pair :
    SavesAll Base64.decodeString pemAction pair := by
  refine (saved_outputs_iff (c := configOf pemAction)
    (show (configOf pemAction).validate id = .ok (configOf pemAction) by
      decide +kernel) List.mem_cons_self List.mem_cons_self rfl
    Base64.decodeString pair).mpr ?_
  rintro pkcs12 hpkcs12 -
  obtain rfl : [] = pkcs12 := Except.ok.inj hpkcs12
  decide +kernel

/-- One file name for the certificate and the key. -/
private def sameName : SaveAction :=
  ⟨"/etc/ssl", "server.pem", [], [], "server.pem", [], []⟩

/-- The name of the certificate file is a blank. -/
private def blankName : SaveAction :=
  ⟨"/etc/ssl", " ", [], [], "key.pem", [], []⟩

/-- Two accepted actions return nil: the key replaces the certificate in the
one file, and no certificate is written. -/
theorem accepted_outputs_are_lost :
    ((configOf sameName).validate id = .ok (configOf sameName) ∧
      ¬SavesAll Base64.decodeString sameName pair) ∧
    (configOf blankName).validate id = .ok (configOf blankName) ∧
      ¬SavesAll Base64.decodeString blankName pair := by
  refine ⟨⟨by decide +kernel, fun h => ?_⟩, by decide +kernel, fun h => ?_⟩
  · obtain ⟨-, hsaved⟩ := h .quiet ⟨fun _ => none, 0⟩ _ rfl
    have hcert := hsaved [] rfl ("/etc/ssl/server.pem", "cert")
      (by decide +kernel)
    revert hcert
    decide +kernel
  · obtain ⟨-, hsaved⟩ := h .quiet ⟨fun _ => none, 0⟩ _ rfl
    have hcert := hsaved [] rfl ("/etc/ssl/ ", "cert") (by decide +kernel)
    revert hcert
    decide +kernel

/-! ## PKCS#12 data that nothing is done with -/

section Uninfluential

variable (decodeString : GoString → Except GoString GoString)
  (action : SaveAction)

/-- The two payloads end the same way with the same files, and not because of
PKCS#12 data. -/
def Uninfluenced (payload payload' : Payload) : Prop :=
  ∀ o s, save decodeString action payload o s =
      save decodeString action payload' o s ∧
    ∀ text, (save decodeString action payload o s).1 ≠
      .error (.decodePKCS12 text)

/-- The PKCS#12 text of the payload is blank, or it is one. -/
def Decodes (payload : Payload) : Prop :=
  ∃ pkcs12, pkcs12Bytes decodeString payload = .ok pkcs12

variable {decodeString action} {payload : Payload}

/-- An action without a PKCS#12 file has a step for each other output. -/
theorem saveScript_congr (hfile : action.pkcs12File.trimSpace = [])
    {pkcs12 pkcs12Base64 : GoString} (h : Decodes decodeString payload)
    (h' : Decodes decodeString { payload with
      pkcs12 := pkcs12, pkcs12Base64 := pkcs12Base64 }) :
    saveScript decodeString action payload =
      saveScript decodeString action { payload with
        pkcs12 := pkcs12, pkcs12Base64 := pkcs12Base64 } := by
  obtain ⟨bytes, hbytes⟩ := h
  obtain ⟨bytes', hbytes'⟩ := h'
  rw [saveScript_ok hbytes, saveScript_ok hbytes']
  have hskip : ∀ content, entryStep (GoPath.clean action.certDir)
      ⟨action.pkcs12File, content, "pkcs12"⟩ = .skip := fun _ => if_pos hfile
  simp only [entries, List.map_cons, List.map_nil, hskip]
  rfl

/-- A script whose PKCS#12 text decodes does not stop for it. -/
theorem stopped_ne_decodePKCS12 (h : Decodes decodeString payload)
    (text : GoString) : stopped (saveScript decodeString action payload) ≠
      some (.decodePKCS12 text) := by
  obtain ⟨bytes, hbytes⟩ := h
  intro hstop
  have hmem := mem_of_stopped hstop
  rw [saveScript_ok hbytes, List.mem_append, List.mem_map, List.mem_map] at hmem
  rcases hmem with ⟨e, -, he⟩ | ⟨cf, -, hcf⟩
  · unfold entryStep at he
    split at he
    · cases he
    split at he
    · cases he
    · cases he
  · rw [combinedStep_eq] at hcf
    cases hfind : cf.parts.find? (lacks payload) with
    | none =>
        rw [hfind] at hcf
        cases hcf
    | some part =>
        rw [hfind] at hcf
        cases hcf

theorem save_ne_decodePKCS12 (h : Decodes decodeString payload)
    (o : Oracle Call) (s : Sys Files) (text : GoString) :
    (save decodeString action payload o s).1 ≠ .error (.decodePKCS12 text) := by
  have hends : (save decodeString action payload).wp o s fun r _ =>
      r ≠ .error (.decodePKCS12 text) := by
    refine Prog.wp_mono (save_ends _ _ _ o s) ?_
    rintro r t (rfl | ⟨err, rfl, key, value, hmem⟩ | ⟨hend, -⟩) hr
    · cases hr
    · obtain rfl := Except.error.inj hr
      cases saveScript_sorted _ hmem
    · rw [hr] at hend
      cases hstop : stopped (saveScript decodeString action payload) with
      | none =>
          rw [hstop] at hend
          cases hend
      | some err =>
          rw [hstop] at hend
          obtain rfl := Except.error.inj hend
          exact stopped_ne_decodePKCS12 h text hstop
  exact hends

/-- PKCS#12 text that does not decode ends a run in which nothing else goes
wrong. -/
theorem save_undecodable (action : SaveAction)
    (h : ¬Decodes decodeString payload) (s : Sys Files) :
    ∃ text, (save decodeString action payload .quiet s).1 =
      .error (.decodePKCS12 text) := by
  obtain ⟨hr, -⟩ := save_quiet decodeString action payload s
  cases hpkcs12 : pkcs12Bytes decodeString payload with
  | error err =>
      obtain ⟨text, rfl⟩ := pkcs12Bytes_error hpkcs12
      rw [saveScript, hpkcs12] at hr
      exact ⟨text, hr⟩
  | ok bytes => exact absurd ⟨bytes, hpkcs12⟩ h

/-- **When PKCS#12 data has no influence** on an action without a PKCS#12
file. -/
theorem pkcs12_uninfluential_iff
    (decodeString : GoString → Except GoString GoString) {action : SaveAction}
    (hfile : action.pkcs12File.trimSpace = []) (payload : Payload)
    (pkcs12 pkcs12Base64 : GoString) :
    Uninfluenced decodeString action payload { payload with
        pkcs12 := pkcs12, pkcs12Base64 := pkcs12Base64 } ↔
      Decodes decodeString payload ∧ Decodes decodeString { payload with
        pkcs12 := pkcs12, pkcs12Base64 := pkcs12Base64 } := by
  constructor
  · intro h
    obtain ⟨hsame, hnot⟩ := h .quiet ⟨fun _ => none, 0⟩
    by_contra hdecodes
    rcases not_and_or.mp hdecodes with hbad | hbad
    · obtain ⟨text, hr⟩ := save_undecodable action hbad ⟨fun _ => none, 0⟩
      exact hnot text hr
    · obtain ⟨text, hr⟩ := save_undecodable action hbad ⟨fun _ => none, 0⟩
      exact hnot text ((congrArg Prod.fst hsame).trans hr)
  · rintro ⟨hdecodes, hdecodes'⟩ o s
    refine ⟨?_, save_ne_decodePKCS12 hdecodes o s⟩
    rw [save_eq, save_eq, saveScript_congr hfile hdecodes hdecodes']

end Uninfluential

theorem pkcs12_uninfluential_iff_pair :
    Uninfluenced Base64.decodeString pemAction pair
      { pair with pkcs12 := [], pkcs12Base64 := "QUJD" } :=
  (pkcs12_uninfluential_iff Base64.decodeString (by decide +kernel) pair []
    "QUJD").mpr ⟨⟨[], rfl⟩, "ABC", by decide +kernel⟩

/-- A text that is no PKCS#12 archive makes an action fail that does not save
any. -/
theorem unused_pkcs12_fails :
    pemAction.pkcs12File = [] ∧
      (save Base64.decodeString pemAction pair .quiet renewed).1 = .ok () ∧
      (save Base64.decodeString pemAction { pair with pkcs12 := "?" } .quiet
        renewed).1 = .error (.decodePKCS12 Base64.corrupt) ∧
      ¬Uninfluenced Base64.decodeString pemAction pair
        { pair with pkcs12 := "?" } := by
  have hok : (save Base64.decodeString pemAction pair .quiet renewed).1 =
      .ok () := by decide +kernel
  have herr : (save Base64.decodeString pemAction { pair with pkcs12 := "?" }
      .quiet renewed).1 = .error (.decodePKCS12 Base64.corrupt) := by
    decide +kernel
  refine ⟨rfl, hok, herr, fun h => ?_⟩
  have hsame := congrArg Prod.fst (h .quiet renewed).1
  rw [hok, herr] at hsame
  cases hsame

end Hdns.Ports.SaveOutcome

import Hdns.Ports.Webhook
import Hdns.Verified.Effect
import Hdns.Verified.GoPath
import Hdns.Verified.Overwrite
import Mathlib.Data.List.DropRight

/-!
# The `cert_save` action of the worker

`save` writes the certificate files of a webhook payload into a directory: one
file for each artifact that has a file name, then the combined files.  It checks
the content of a file when its turn comes, so a payload without it fails in the
middle.

## Main results

* `outputFiles` — the files of an action, whatever the payload.
* `save_carriesOut` — when all content is there, `save` carries out the writes
  of `saveWrites` in order, up to the first that the file system refuses.
-/

namespace Hdns.Ports.Worker

open Hdns.Verified
open Hdns.Verified.GoString
open Hdns.Verified.Overwrite (outcome carriedOut)
open Hdns.Ports.Webhook

/-! ## The configuration and the file system -/

/-- `config.CombinedFileConfig`. -/
structure CombinedFile where
  filename : GoString
  parts : List GoString
  deriving DecidableEq, Repr

/-- The `cert_save` fields of `config.ActionConfig`. -/
structure SaveAction where
  certDir : GoString
  certFile : GoString
  chainFile : GoString
  fullchainFile : GoString
  keyFile : GoString
  pkcs12File : GoString
  combinedFiles : List CombinedFile
  deriving DecidableEq, Repr

/-- The files of the host, by path. -/
abbrev Files := GoString → Option GoString

/-- What `save` asks of the operating system. -/
inductive Call where
  | mkdirAll | writeFile
  deriving DecidableEq, Repr

/-- The errors of `save`. -/
inductive SaveError where
  /-- `cert_save: create directory %q: %w`. -/
  | createDirectory (dir : GoString)
  /-- `cert_save: decode pkcs12 payload: %w`. -/
  | decodePKCS12 (err : GoString)
  /-- `cert_save: payload contains no %s`. -/
  | payloadContainsNo (field : GoString)
  /-- `cert_save: write %s to %q: %w`. -/
  | write (field dest : GoString)
  /-- `cert_save: combined file %q: payload contains no %s`. -/
  | combinedContainsNo (filename part : GoString)
  /-- `cert_save: write combined file %q: %w`. -/
  | writeCombined (filename : GoString)
  deriving DecidableEq, Repr

/-- A function of the worker. -/
abbrev Action (α : Type) := Prog Call Files SaveError α

/-- `os.MkdirAll`: directories hold no content. -/
def mkdirAll (dir : GoString) : Action Unit :=
  .call .mkdirAll (.createDirectory dir) fun files => (.ok (), files)

/-- `os.WriteFile`, as one step. -/
def writeFile (err : SaveError) (dest content : GoString) : Action Unit :=
  .call .writeFile err fun files =>
    (.ok (), Function.update files dest (some content))

/-! ## `save` -/

/-- One row of the table `entries`. -/
structure FileEntry where
  filename : GoString
  content : GoString
  field : GoString
  deriving DecidableEq, Repr

/-- The PKCS#12 bytes of a payload; `decodeString` is that of
`base64.StdEncoding`. -/
def pkcs12Bytes (decodeString : GoString → Except GoString GoString)
    (payload : Payload) : Except SaveError GoString :=
  let pkcs12Raw :=
    if payload.pkcs12Base64.trimSpace = [] then payload.pkcs12
    else payload.pkcs12Base64
  if pkcs12Raw.trimSpace ≠ [] then
    (decodeString pkcs12Raw).mapError .decodePKCS12
  else .ok []

/-- The table `entries`. -/
def entries (action : SaveAction) (payload : Payload) (pkcs12 : GoString) :
    List FileEntry :=
  [⟨action.certFile, payload.cert, "cert"⟩,
    ⟨action.chainFile, payload.chain, "chain"⟩,
    ⟨action.fullchainFile, payload.fullchain, "fullchain"⟩,
    ⟨action.keyFile, payload.privateKey, "private_key"⟩,
    ⟨action.pkcs12File, pkcs12, "pkcs12"⟩]

/-- The body of the loop over `entries`. -/
def saveEntry (dir : GoString) (e : FileEntry) : Action Unit :=
  if e.filename.trimSpace = [] then pure ()
  else if e.content = [] then Prog.throw (.payloadContainsNo e.field)
  else
    let dest := GoPath.join [dir, e.filename]
    writeFile (.write e.field dest) dest e.content

/-- The map `partContent`; a part it does not have is the empty text. -/
def partContent (payload : Payload) (part : GoString) : GoString :=
  if part = lit "cert" then payload.cert
  else if part = lit "chain" then payload.chain
  else if part = lit "fullchain" then payload.fullchain
  else if part = lit "key" then payload.privateKey
  else []

/-- `strings.TrimRight(s, "\n")`. -/
def trimNewlines (s : GoString) : GoString :=
  s.rdropWhile (· = 0x0A)

/-- The content of a combined file: each piece ends with one newline. -/
def combinedContent (payload : Payload) (cf : CombinedFile) :
    Except SaveError GoString :=
  cf.parts.foldlM (fun buf part =>
    let piece := partContent payload part
    if piece.trimSpace = [] then
      .error (.combinedContainsNo cf.filename part)
    else .ok (buf ++ trimNewlines piece ++ lit "\n")) []

/-- The body of the loop over `action.CombinedFiles`. -/
def saveCombined (dir : GoString) (payload : Payload) (cf : CombinedFile) :
    Action Unit := do
  let content ← Prog.ofExcept (combinedContent payload cf)
  writeFile (.writeCombined cf.filename) (GoPath.join [dir, cf.filename])
    content

/-- `save`. -/
def save (decodeString : GoString → Except GoString GoString)
    (action : SaveAction) (payload : Payload) : Action Unit := do
  let dir := GoPath.clean action.certDir
  mkdirAll dir
  let pkcs12 ← Prog.ofExcept (pkcs12Bytes decodeString payload)
  (entries action payload pkcs12).forM (saveEntry dir)
  action.combinedFiles.forM (saveCombined dir payload)

/-! ## The writes of a payload whose content is complete -/

/-- A write: the path and the bytes. -/
abbrev Write := GoString × GoString

/-- The write of one entry, if it has a file name. -/
def entryWrites (dir : GoString) (e : FileEntry) :
    Except SaveError (List Write) :=
  if e.filename.trimSpace = [] then .ok []
  else if e.content = [] then .error (.payloadContainsNo e.field)
  else .ok [(GoPath.join [dir, e.filename], e.content)]

/-- The write of one combined file. -/
def combinedWrites (dir : GoString) (payload : Payload) (cf : CombinedFile) :
    Except SaveError (List Write) :=
  (combinedContent payload cf).map fun content =>
    [(GoPath.join [dir, cf.filename], content)]

/-- All writes, or the error that stops `save` before the last of them. -/
def saveWrites (decodeString : GoString → Except GoString GoString)
    (action : SaveAction) (payload : Payload) :
    Except SaveError (List Write) := do
  let dir := GoPath.clean action.certDir
  let pkcs12 ← pkcs12Bytes decodeString payload
  let single ← (entries action payload pkcs12).mapM (entryWrites dir)
  let combined ← action.combinedFiles.mapM (combinedWrites dir payload)
  pure (single.flatten ++ combined.flatten)

/-- The names of the individual files, in the order of `entries`. -/
def SaveAction.filenames (action : SaveAction) : List GoString :=
  [action.certFile, action.chainFile, action.fullchainFile, action.keyFile,
    action.pkcs12File]

/-- The output set of an action: its individual and its combined files. -/
def outputFiles (action : SaveAction) : List GoString :=
  let dir := GoPath.clean action.certDir
  (action.filenames.filter (·.trimSpace ≠ [])).map
      (fun filename => GoPath.join [dir, filename]) ++
    action.combinedFiles.map fun cf => GoPath.join [dir, cf.filename]

/-! ## Carrying out writes -/

/-- Whatever goes wrong, the program carries out the first of the writes `ws`,
all of them when it returns without an error; and it does so when nothing goes
wrong. -/
structure Carried (ws : List Write) (o : Oracle Call) (files : Files)
    (r : Except SaveError Unit) (files' : Files) : Prop where
  first : ∃ k ≤ ws.length, files' = carriedOut (ws.take k) files
  all : r = .ok () → files' = carriedOut ws files
  quiet : o = .quiet → r = .ok ()

/-- The program carries out `ws`. -/
def CarriesOut (ws : List Write) (p : Action Unit) : Prop :=
  ∀ o s, p.wp o s fun r t => Carried ws o s.state r t.state

theorem carriedOut_append (ws ws' : List Write) (files : Files) :
    carriedOut (ws ++ ws') files = carriedOut ws' (carriedOut ws files) :=
  List.foldl_append

theorem carriesOut_pure : CarriesOut [] (pure ()) :=
  fun _ _ => ⟨⟨0, Nat.le_refl 0, rfl⟩, fun _ => rfl, fun _ => rfl⟩

theorem carriesOut_mkdirAll (dir : GoString) :
    CarriesOut [] (mkdirAll dir) := by
  intro o s
  have hnone : ∃ k ≤ ([] : List Write).length,
      s.state = carriedOut (([] : List Write).take k) s.state :=
    ⟨0, Nat.le_refl 0, rfl⟩
  refine Prog.wp_call_of ⟨hnone, fun _ => rfl, fun _ => rfl⟩
    (fun ho => ⟨hnone, nofun, ?_⟩) (fun ho => ⟨hnone, nofun, ?_⟩)
  · rintro rfl
    cases ho
  · rintro rfl
    cases ho

theorem carriesOut_writeFile (err : SaveError) (dest content : GoString) :
    CarriesOut [(dest, content)] (writeFile err dest content) := by
  intro o s
  refine Prog.wp_call_of
    ⟨⟨1, Nat.le_refl 1, rfl⟩, fun _ => rfl, fun _ => rfl⟩
    (fun ho => ⟨⟨0, Nat.zero_le 1, rfl⟩, nofun, ?_⟩)
    (fun ho => ⟨⟨1, Nat.le_refl 1, rfl⟩, nofun, ?_⟩)
  · rintro rfl
    cases ho
  · rintro rfl
    cases ho

theorem CarriesOut.bind {ws ws' : List Write} {p : Action Unit}
    {q : Unit → Action Unit} (hp : CarriesOut ws p)
    (hq : CarriesOut ws' (q ())) : CarriesOut (ws ++ ws') (p >>= q) := by
  intro o s
  refine Prog.wp_bind_of (hp o s) ?_ ?_
  · rintro err t ⟨⟨k, hk, ht⟩, _, hquiet⟩
    refine ⟨⟨k, ?_, ?_⟩, nofun, fun ho => nomatch hquiet ho⟩
    · rw [List.length_append]
      omega
    · rw [List.take_append_of_le_length hk, ht]
  · rintro _ t ⟨_, hdone, _⟩
    refine Prog.wp_mono (hq o t) ?_
    rintro r u ⟨⟨k, hk, hu⟩, hall, hquiet⟩
    rw [hdone rfl] at hu hall
    refine ⟨⟨ws.length + k, ?_, ?_⟩, fun hr => ?_, hquiet⟩
    · rw [List.length_append]
      omega
    · rw [List.take_length_add_append, carriedOut_append, hu]
    · rw [carriedOut_append, hall hr]

/-- A loop carries out what its iterations carry out. -/
theorem carriesOut_forM {α : Type} {f : α → Action Unit}
    {writes : α → Except SaveError (List Write)}
    (hf : ∀ a ws, writes a = .ok ws → CarriesOut ws (f a)) :
    ∀ (as : List α) (wss : List (List Write)), as.mapM writes = .ok wss →
      CarriesOut wss.flatten (as.forM f) := by
  intro as
  induction as with
  | nil =>
      intro wss h
      obtain rfl := Except.ok.inj h
      exact carriesOut_pure
  | cons a as ih =>
      intro wss h
      rw [List.mapM_cons] at h
      cases ha : writes a with
      | error err =>
          rw [ha] at h
          cases h
      | ok ws =>
          cases has : as.mapM writes with
          | error err =>
              rw [ha, has] at h
              cases h
          | ok wss' =>
              rw [ha, has] at h
              obtain rfl : ws :: wss' = wss := Except.ok.inj h
              exact CarriesOut.bind (hf a ws ha) (ih wss' has)

theorem saveEntry_carriesOut (dir : GoString) (e : FileEntry)
    (ws : List Write) (h : entryWrites dir e = .ok ws) :
    CarriesOut ws (saveEntry dir e) := by
  unfold entryWrites at h
  unfold saveEntry
  split at h
  · next hblank =>
    obtain rfl := Except.ok.inj h
    rw [if_pos hblank]
    exact carriesOut_pure
  · next hname =>
    split at h
    · cases h
    · next hcontent =>
      obtain rfl := Except.ok.inj h
      rw [if_neg hname, if_neg hcontent]
      exact carriesOut_writeFile _ _ _

theorem saveCombined_carriesOut (dir : GoString) (payload : Payload)
    (cf : CombinedFile) (ws : List Write)
    (h : combinedWrites dir payload cf = .ok ws) :
    CarriesOut ws (saveCombined dir payload cf) := by
  unfold combinedWrites at h
  unfold saveCombined
  cases hcontent : combinedContent payload cf with
  | error err =>
      rw [hcontent] at h
      cases h
  | ok content =>
      rw [hcontent] at h
      obtain rfl := Except.ok.inj h
      exact carriesOut_writeFile _ _ _

variable {decodeString : GoString → Except GoString GoString}

/-- What a complete payload consists of. -/
theorem saveWrites_ok {action : SaveAction} {payload : Payload}
    {ws : List Write} (h : saveWrites decodeString action payload = .ok ws) :
    ∃ pkcs12 single combined,
      pkcs12Bytes decodeString payload = .ok pkcs12 ∧
      (entries action payload pkcs12).mapM
        (entryWrites (GoPath.clean action.certDir)) = .ok single ∧
      action.combinedFiles.mapM
        (combinedWrites (GoPath.clean action.certDir) payload) = .ok combined ∧
      ws = single.flatten ++ combined.flatten := by
  obtain ⟨pkcs12, hpkcs12, h⟩ := Prog.except_bind_eq_ok.mp h
  obtain ⟨single, hsingle, h⟩ := Prog.except_bind_eq_ok.mp h
  obtain ⟨combined, hcombined, h⟩ := Prog.except_bind_eq_ok.mp h
  exact ⟨pkcs12, single, combined, hpkcs12, hsingle, hcombined,
    (Except.ok.inj h).symm⟩

/-- **`save` carries out the writes of a complete payload.** -/
theorem save_carriesOut {action : SaveAction} {payload : Payload}
    {ws : List Write} (h : saveWrites decodeString action payload = .ok ws) :
    CarriesOut ws (save decodeString action payload) := by
  obtain ⟨pkcs12, single, combined, hpkcs12, hsingle, hcombined, rfl⟩ :=
    saveWrites_ok h
  have hsave : save decodeString action payload =
      mkdirAll (GoPath.clean action.certDir) >>= fun _ =>
        (entries action payload pkcs12).forM
          (saveEntry (GoPath.clean action.certDir)) >>= fun _ =>
            action.combinedFiles.forM
              (saveCombined (GoPath.clean action.certDir) payload) := by
    unfold save
    rw [hpkcs12]
    rfl
  rw [hsave]
  have hentries := carriesOut_forM (saveEntry_carriesOut
    (GoPath.clean action.certDir)) _ _ hsingle
  have hcombineds := carriesOut_forM (saveCombined_carriesOut
    (GoPath.clean action.certDir) payload) _ _ hcombined
  exact (carriesOut_mkdirAll _).bind (hentries.bind hcombineds)

/-! ## The files of an action -/

private theorem mapM_keys {α : Type} {f : α → Except SaveError (List Write)}
    {key : α → List GoString}
    (hf : ∀ a ws, f a = .ok ws → ws.map Prod.fst = key a) :
    ∀ (as : List α) (wss : List (List Write)), as.mapM f = .ok wss →
      wss.flatten.map Prod.fst = as.flatMap key := by
  intro as
  induction as with
  | nil =>
      intro wss h
      obtain rfl := Except.ok.inj h
      rfl
  | cons a as ih =>
      intro wss h
      rw [List.mapM_cons] at h
      obtain ⟨ws, hws, h⟩ := Prog.except_bind_eq_ok.mp h
      obtain ⟨wss', hwss, h⟩ := Prog.except_bind_eq_ok.mp h
      obtain rfl : ws :: wss' = wss := Except.ok.inj h
      rw [List.flatten_cons, List.map_append, List.flatMap_cons, hf a ws hws,
        ih wss' hwss]

theorem entryWrites_keys (dir : GoString) (e : FileEntry) (ws : List Write)
    (h : entryWrites dir e = .ok ws) :
    ws.map Prod.fst = if e.filename.trimSpace = [] then []
      else [GoPath.join [dir, e.filename]] := by
  unfold entryWrites at h
  split at h
  · next hblank =>
    obtain rfl := Except.ok.inj h
    rw [if_pos hblank]
    rfl
  · next hname =>
    split at h
    · cases h
    · obtain rfl := Except.ok.inj h
      rw [if_neg hname]
      rfl

theorem combinedWrites_keys (dir : GoString) (payload : Payload)
    (cf : CombinedFile) (ws : List Write)
    (h : combinedWrites dir payload cf = .ok ws) :
    ws.map Prod.fst = [GoPath.join [dir, cf.filename]] := by
  unfold combinedWrites at h
  cases hcontent : combinedContent payload cf with
  | error err =>
      rw [hcontent] at h
      cases h
  | ok content =>
      rw [hcontent] at h
      obtain rfl := Except.ok.inj h
      rfl

private theorem flatMap_named (path : GoString → GoString)
    (names : List GoString) :
    (names.flatMap fun name =>
        if name.trimSpace = [] then [] else [path name]) =
      (names.filter (·.trimSpace ≠ [])).map path := by
  induction names with
  | nil => rfl
  | cons name names ih =>
      rw [List.flatMap_cons, ih, List.filter_cons]
      by_cases hblank : name.trimSpace = []
      · simp [hblank]
      · simp [hblank]

/-- **The files of an action** do not depend on the payload, nor does their
order. -/
theorem saveWrites_keys {action : SaveAction} {payload : Payload}
    {ws : List Write} (h : saveWrites decodeString action payload = .ok ws) :
    ws.map Prod.fst = outputFiles action := by
  obtain ⟨pkcs12, single, combined, _, hsingle, hcombined, rfl⟩ :=
    saveWrites_ok h
  rw [List.map_append, mapM_keys (entryWrites_keys _) _ _ hsingle,
    mapM_keys (combinedWrites_keys _ payload) _ _ hcombined, outputFiles]
  have hnames : (entries action payload pkcs12).map FileEntry.filename =
      action.filenames := rfl
  rw [← hnames, ← flatMap_named, List.flatMap_map, ← List.map_eq_flatMap]

end Hdns.Ports.Worker

import Hdns.Ports.CertificateFiles
import Hdns.Ports.TaskEdits
import Hdns.Ports.Worker
import Hdns.Verified.Base64

/-!
# The delivery of certificates to the worker

`renderBody` of the backend builds the body of a task's webhook call; for a
blank template that is a JSON object with the certificate material.  The
worker's handler decodes it into `task.Payload`, and `save` writes the files of
the payload.  Backend and worker are separate Go modules: what ties them
together is the names of the members alone.

## Main results

* `foldlM_certificatePayload` — the worker finds each text of the backend in
  the field it belongs to.
* `material_reaches_files` — the files the worker writes hold the bytes the
  backend has loaded.
-/

namespace Hdns.Ports.CertificateDelivery

open Hdns.Verified
open Hdns.Verified.GoString
open Hdns.Ports.Schema
open Hdns.Ports.CertificateFiles
open Hdns.Ports.TaskEdits
open Hdns.Ports.Webhook
open Hdns.Ports.Worker

/-! ## Package `encoding/json` -/

/-- A member's value, as far as a field of type `string` tells values apart. -/
inductive Value where
  | text (s : GoString)
  | null
  | other
  deriving DecidableEq, Repr

/-- What both sides use of `encoding/json`. -/
structure Json where
  /-- `json.Marshal` of a `map[string]string` with these entries. -/
  marshal : List (GoString × GoString) → Except GoError GoString
  /-- `json.Marshal` of a string. -/
  marshalText : GoString → Except GoError GoString
  /-- The members of the object a `json.Decoder` finds first in a stream, in
  their order; the flag says that the stream breaks off with an error.  `null`
  in place of the object has no members. -/
  members : GoString → Bool → Except GoString (List (GoString × Value))

/-- `encoding/json` round-trips a map of valid UTF-8 texts: it is written as an
object, which is read back with the same members in some order. -/
def Json.RoundTrips (json : Json) (entries : List (GoString × GoString)) :
    Prop :=
  (entries.map Prod.fst).Nodup →
    (∀ e ∈ entries, e.1.valid = true ∧ e.2.valid = true) →
      ∃ body found, json.marshal entries = .ok body ∧ body ≠ [] ∧
        json.members body false = .ok found ∧
        List.Perm found (entries.map fun e => (e.1, .text e.2))

/-! ## The body of a webhook call -/

/-- What `renderBody` uses of code outside the repository; `encode` is
`pkcs12.Encode` on the parsed material. -/
structure Codec where
  lib : Library
  json : Json
  encode : Material → Except GoError GoString

/-- `jsonEscape`. -/
def jsonEscape (json : Json) (s : GoString) : GoString :=
  match json.marshalText s with
  | .error _ => s
  | .ok b => if b.length < 2 then s else (b.drop 1).dropLast

/-- `buildPKCS12Base64`. -/
def buildPKCS12Base64 (codec : Codec) (m : Material) :
    Except GoError GoString := do
  let pfx ← codec.encode m
  pure (Base64.encode pfx)

/-- The map `payload` of `renderBody`. -/
def certificatePayload (m : Material) (format pkcs12Base64 : GoString) :
    List (GoString × GoString) :=
  [(lit "cert", m.cert), (lit "chain", m.chain),
    (lit "fullchain", m.fullchain), (lit "private_key", m.key),
    (lit "certificate", m.fullchain), (lit "certificate_format", format)] ++
  if pkcs12Base64 ≠ [] then
    [(lit "pkcs12", pkcs12Base64), (lit "pkcs12_base64", pkcs12Base64)]
  else []

/-- A placeholder of a template. -/
def placeholder (name : String) : GoString :=
  lit "\x7b\x7b" ++ lit name ++ lit "\x7d\x7d"

/-- The arguments of `strings.NewReplacer`. -/
def replacements (json : Json) (m : Material)
    (format pkcs12Base64 : GoString) : List (GoString × GoString) :=
  [(placeholder "cert", m.cert),
    (placeholder "chain", m.chain),
    (placeholder "fullchain", m.fullchain),
    (placeholder "certificate", m.fullchain),
    (placeholder "private_key", m.key),
    (placeholder "pkcs12", pkcs12Base64),
    (placeholder "pkcs12_base64", pkcs12Base64),
    (placeholder "certificate_format", format),
    (placeholder "cert_json", jsonEscape json m.cert),
    (placeholder "chain_json", jsonEscape json m.chain),
    (placeholder "fullchain_json", jsonEscape json m.fullchain),
    (placeholder "certificate_json", jsonEscape json m.fullchain),
    (placeholder "private_key_json", jsonEscape json m.key),
    (placeholder "pkcs12_json", jsonEscape json pkcs12Base64),
    (placeholder "pkcs12_base64_json", jsonEscape json pkcs12Base64),
    (placeholder "certificate_format_json", jsonEscape json format)]

/-- The format of a task's certificate. -/
def taskFormat (codec : Codec) (task : Schema.Task) : GoString :=
  resolveCertificateFormat codec.lib task.certificateFormat task.body.string

/-- The end of `renderBody`, once the material is loaded. -/
def renderMaterial (codec : Codec) (task : Schema.Task) (m : Material) :
    Except GoError GoString := do
  let body := task.body.string
  let format := taskFormat codec task
  let pkcs12Base64 ←
    if format = certificateFormatPKCS12 then
      (buildPKCS12Base64 codec m).mapError .wrap
    else .ok []
  if body.trimSpace = [] then
    (codec.json.marshal (certificatePayload m format pkcs12Base64)).mapError
      (.because "failed to encode certificate payload")
  else pure (body.replacer (replacements codec.json m format pkcs12Base64))

/-- `renderBody`. -/
def renderBody (codec : Codec) (task : Schema.Task) : Handler GoString :=
  if ¬task.includeCertificate then pure task.body.string
  else do
    let m ← (loadCertificateMaterial task.recordID).mapError .wrap
    Prog.ofExcept (renderMaterial codec task m)

/-! ## Decoding into `task.Payload` -/

/-- The limit of `http.MaxBytesReader`. -/
def maxBody : Nat := 4 * 1024 * 1024

/-- The fields of `task.Payload`. -/
inductive Field where
  | cert | chain | fullchain | privateKey | certificateFormat | pkcs12
  | pkcs12Base64
  deriving DecidableEq, Repr

/-- The `json` tag of a field. -/
def Field.tag : Field → GoString
  | .cert => "cert"
  | .chain => "chain"
  | .fullchain => "fullchain"
  | .privateKey => "private_key"
  | .certificateFormat => "certificate_format"
  | .pkcs12 => "pkcs12"
  | .pkcs12Base64 => "pkcs12_base64"

/-- The fields in the order they are declared. -/
def fields : List Field :=
  [.cert, .chain, .fullchain, .privateKey, .certificateFormat, .pkcs12,
    .pkcs12Base64]

def Field.get (p : Payload) : Field → GoString
  | .cert => p.cert
  | .chain => p.chain
  | .fullchain => p.fullchain
  | .privateKey => p.privateKey
  | .certificateFormat => p.certificateFormat
  | .pkcs12 => p.pkcs12
  | .pkcs12Base64 => p.pkcs12Base64

def Field.set (p : Payload) (s : GoString) : Field → Payload
  | .cert => { p with cert := s }
  | .chain => { p with chain := s }
  | .fullchain => { p with fullchain := s }
  | .privateKey => { p with privateKey := s }
  | .certificateFormat => { p with certificateFormat := s }
  | .pkcs12 => { p with pkcs12 := s }
  | .pkcs12Base64 => { p with pkcs12Base64 := s }

theorem Field.get_set (p : Payload) (s : GoString) (f g : Field) :
    f.get (g.set p s) = if f = g then s else f.get p := by
  cases f <;> cases g <;> rfl

/-- `foldRune`, as far as it reaches ASCII: upper case, the long s and the
Kelvin sign. -/
def foldRune (r : Nat) : Nat :=
  if 0x61 ≤ r ∧ r ≤ 0x7A then r - 0x20
  else if r = 0x17F then 0x53
  else if r = 0x212A then 0x4B
  else r

/-- `foldName`. -/
def foldName (name : GoString) : List Nat :=
  name.runes.map fun r => foldRune r.1

/-- The field a member is stored in: the one with its name, else the first
whose name differs in case only. -/
def payloadField (name : GoString) : Option Field :=
  (fields.find? fun f => f.tag = name).or
    (fields.find? fun f => foldName f.tag = foldName name)

/-- `UnmarshalTypeError`, in short. -/
def typeError : GoString := "json: cannot unmarshal into Go struct field"

/-- Store one member: unknown ones are ignored, and `null` changes nothing. -/
def storeMember (p : Payload) (member : GoString × Value) :
    Except GoString Payload :=
  match payloadField member.1, member.2 with
  | none, _ => .ok p
  | some _, .null => .ok p
  | some f, .text s => .ok (f.set p s)
  | some _, .other => .error typeError

/-- `dec.Decode(&payload)` on the limited body of a request. -/
def decodePayload (json : Json) (body : GoString) : Except GoString Payload := do
  let found ← json.members (body.take maxBody) (decide (maxBody < body.length))
  found.foldlM storeMember Payload.zero

/-! ## What the worker decodes -/

/-- A field holds the text of the members that are stored in it. -/
theorem foldlM_storeMember (found : List (GoString × Value)) :
    ∀ p : Payload, (∀ e ∈ found, ∃ s, e.2 = .text s) →
      ∃ q, found.foldlM storeMember p = .ok q ∧ ∀ f : Field,
        ((∀ e ∈ found, payloadField e.1 ≠ some f) → f.get q = f.get p) ∧
        ∀ s, (∃ e ∈ found, payloadField e.1 = some f) →
          (∀ e ∈ found, payloadField e.1 = some f → e.2 = .text s) →
            f.get q = s := by
  induction found with
  | nil => exact fun p _ => ⟨p, rfl, fun _ => ⟨fun _ => rfl, by simp⟩⟩
  | cons member found ih =>
      intro p htext
      obtain ⟨text, hmember⟩ := htext member List.mem_cons_self
      have hrest : ∀ e ∈ found, ∃ s, e.2 = .text s := fun e he =>
        htext e (List.mem_cons_of_mem member he)
      cases hfield : payloadField member.1 with
      | none =>
          obtain ⟨q, hq, hget⟩ := ih p hrest
          have hstore : storeMember p member = .ok p := by
            simp only [storeMember, hfield]
          refine ⟨q, ?_, fun f => ⟨fun hnone => ?_, fun s hsome hall => ?_⟩⟩
          · rw [List.foldlM_cons, hstore]
            exact hq
          · exact (hget f).1 fun e he => hnone e (List.mem_cons_of_mem member he)
          · refine (hget f).2 s ?_ fun e he =>
              hall e (List.mem_cons_of_mem member he)
            obtain ⟨e, he, hf⟩ := hsome
            cases List.mem_cons.mp he with
            | inl heq =>
                rw [heq, hfield] at hf
                cases hf
            | inr he => exact ⟨e, he, hf⟩
      | some g =>
          obtain ⟨q, hq, hget⟩ := ih (g.set p text) hrest
          have hstore : storeMember p member = .ok (g.set p text) := by
            simp only [storeMember, hfield, hmember]
          refine ⟨q, ?_, fun f => ⟨fun hnone => ?_, fun s hsome hall => ?_⟩⟩
          · rw [List.foldlM_cons, hstore]
            exact hq
          · have hne : f ≠ g := by
              rintro rfl
              exact hnone member List.mem_cons_self hfield
            rw [(hget f).1 fun e he => hnone e (List.mem_cons_of_mem member he),
              Field.get_set, if_neg hne]
          · have hlater : ∀ e ∈ found, payloadField e.1 = some f →
                e.2 = .text s := fun e he =>
              hall e (List.mem_cons_of_mem member he)
            by_cases hmore : ∃ e ∈ found, payloadField e.1 = some f
            · exact (hget f).2 s hmore hlater
            · obtain ⟨e, he, hf⟩ := hsome
              -- the only member for `f` is the first one
              cases List.mem_cons.mp he with
              | inr he => exact absurd ⟨e, he, hf⟩ hmore
              | inl heq =>
                  subst heq
                  obtain rfl := Option.some.inj (hfield.symm.trans hf)
                  have hs := hall e List.mem_cons_self hf
                  rw [hmember] at hs
                  obtain rfl := Value.text.inj hs
                  rw [(hget g).1 fun e' he' hf' => hmore ⟨e', he', hf'⟩,
                    Field.get_set, if_pos rfl]

/-- Payloads are told apart by their fields. -/
private theorem payload_ext {p q : Payload} (h : ∀ f : Field, f.get p = f.get q) :
    p = q := by
  obtain ⟨cert, chain, fullchain, key, format, pkcs12, pkcs12Base64⟩ := p
  have hcert := h .cert
  have hchain := h .chain
  have hfullchain := h .fullchain
  have hkey := h .privateKey
  have hformat := h .certificateFormat
  have hpkcs12 := h .pkcs12
  have hpkcs12Base64 := h .pkcs12Base64
  simp only [Field.get] at *
  subst hcert hchain hfullchain hkey hformat hpkcs12 hpkcs12Base64
  rfl

section Members

variable {m : Material} {format pkcs12Base64 : GoString}

/-- What the worker finds in the backend's payload. -/
def received (m : Material) (format pkcs12Base64 : GoString) : Payload :=
  ⟨m.cert, m.chain, m.fullchain, m.key, format, pkcs12Base64, pkcs12Base64⟩

/-- The fields the backend's members are stored in: `certificate` has none. -/
private theorem payloadField_names :
    payloadField "cert" = some .cert ∧ payloadField "chain" = some .chain ∧
      payloadField "fullchain" = some .fullchain ∧
      payloadField "private_key" = some .privateKey ∧
      payloadField "certificate" = none ∧
      payloadField "certificate_format" = some .certificateFormat ∧
      payloadField "pkcs12" = some .pkcs12 ∧
      payloadField "pkcs12_base64" = some .pkcs12Base64 := by
  decide

/-- Each member of the payload carries the text of its field. -/
private theorem certificatePayload_stored (e : GoString × GoString)
    (he : e ∈ certificatePayload m format pkcs12Base64) (f : Field)
    (hf : payloadField e.1 = some f) :
    e.2 = f.get (received m format pkcs12Base64) := by
  obtain ⟨hcert, hchain, hfullchain, hkey, hunknown, hformat, hpkcs12,
    hpkcs12Base64⟩ := payloadField_names
  have hfield : ∀ g, payloadField e.1 = some g →
      e.2 = g.get (received m format pkcs12Base64) →
        e.2 = f.get (received m format pkcs12Base64) := by
    intro g hg htext
    obtain rfl := Option.some.inj (hg.symm.trans hf)
    exact htext
  cases List.mem_append.mp he with
  | inl hfirst =>
      simp only [List.mem_cons, List.not_mem_nil, or_false] at hfirst
      rcases hfirst with rfl | rfl | rfl | rfl | rfl | rfl
      · exact hfield .cert hcert rfl
      · exact hfield .chain hchain rfl
      · exact hfield .fullchain hfullchain rfl
      · exact hfield .privateKey hkey rfl
      · exact absurd (hunknown.symm.trans hf) nofun
      · exact hfield .certificateFormat hformat rfl
  | inr hlast =>
      split at hlast
      · simp only [List.mem_cons, List.not_mem_nil, or_false] at hlast
        rcases hlast with rfl | rfl
        · exact hfield .pkcs12 hpkcs12 rfl
        · exact hfield .pkcs12Base64 hpkcs12Base64 rfl
      · cases hlast

/-- Each field has a member, or is to be empty. -/
private theorem certificatePayload_complete (m : Material)
    (format pkcs12Base64 : GoString) (f : Field) :
    (∃ e ∈ certificatePayload m format pkcs12Base64,
      payloadField e.1 = some f) ∨
      f.get (received m format pkcs12Base64) = [] := by
  obtain ⟨hcert, hchain, hfullchain, hkey, _, hformat, hpkcs12,
    hpkcs12Base64⟩ := payloadField_names
  have hfirst : ∀ e ∈ [(lit "cert", m.cert), (lit "chain", m.chain),
      (lit "fullchain", m.fullchain), (lit "private_key", m.key),
      (lit "certificate", m.fullchain), (lit "certificate_format", format)],
      e ∈ certificatePayload m format pkcs12Base64 := fun e he =>
    List.mem_append_left _ he
  have hlast : pkcs12Base64 ≠ [] →
      ∀ e ∈ [(lit "pkcs12", pkcs12Base64), (lit "pkcs12_base64", pkcs12Base64)],
        e ∈ certificatePayload m format pkcs12Base64 := by
    intro hne e he
    refine List.mem_append_right _ ?_
    rw [if_pos hne]
    exact he
  have hmember : ∀ e, e ∈ certificatePayload m format pkcs12Base64 →
      payloadField e.1 = some f →
        (∃ e ∈ certificatePayload m format pkcs12Base64,
          payloadField e.1 = some f) ∨
          f.get (received m format pkcs12Base64) = [] := fun e he hf =>
    .inl ⟨e, he, hf⟩
  cases f with
  | cert => exact hmember (lit "cert", m.cert) (hfirst _ (by simp)) hcert
  | chain => exact hmember (lit "chain", m.chain) (hfirst _ (by simp)) hchain
  | fullchain =>
      exact hmember (lit "fullchain", m.fullchain) (hfirst _ (by simp))
        hfullchain
  | privateKey =>
      exact hmember (lit "private_key", m.key) (hfirst _ (by simp)) hkey
  | certificateFormat =>
      exact hmember (lit "certificate_format", format) (hfirst _ (by simp))
        hformat
  | pkcs12 =>
      by_cases hempty : pkcs12Base64 = []
      · exact .inr hempty
      · exact hmember (lit "pkcs12", pkcs12Base64)
          (hlast hempty _ (by simp)) hpkcs12
  | pkcs12Base64 =>
      by_cases hempty : pkcs12Base64 = []
      · exact .inr hempty
      · exact hmember (lit "pkcs12_base64", pkcs12Base64)
          (hlast hempty _ (by simp)) hpkcs12Base64

/-- **Each text of the backend** arrives in the field it belongs to, in
whatever order the members are read. -/
theorem foldlM_certificatePayload {found : List (GoString × Value)}
    (hperm : List.Perm found
      ((certificatePayload m format pkcs12Base64).map fun e =>
        (e.1, .text e.2))) :
    found.foldlM storeMember Payload.zero =
      .ok (received m format pkcs12Base64) := by
  have hmem : ∀ e ∈ found, ∃ e' ∈ certificatePayload m format pkcs12Base64,
      (e'.1, Value.text e'.2) = e := fun e he =>
    List.mem_map.mp (hperm.mem_iff.mp he)
  obtain ⟨q, hq, hget⟩ := foldlM_storeMember found Payload.zero fun e he => by
    obtain ⟨e', _, rfl⟩ := hmem e he
    exact ⟨e'.2, rfl⟩
  have hcarried : ∀ f : Field, ∀ e ∈ found, payloadField e.1 = some f →
      e.2 = .text (f.get (received m format pkcs12Base64)) := by
    intro f e he hf
    obtain ⟨e', he', rfl⟩ := hmem e he
    exact congrArg Value.text (certificatePayload_stored e' he' f hf)
  rw [hq]
  refine congrArg Except.ok (payload_ext fun f => ?_)
  by_cases hsome : ∃ e ∈ found, payloadField e.1 = some f
  · exact (hget f).2 _ hsome (hcarried f)
  · rw [(hget f).1 fun e he hf => hsome ⟨e, he, hf⟩]
    cases certificatePayload_complete m format pkcs12Base64 f with
    | inl hmember =>
        obtain ⟨e, he, hf⟩ := hmember
        exact absurd ⟨_, hperm.mem_iff.mpr (List.mem_map_of_mem he), hf⟩ hsome
    | inr hempty =>
        rw [hempty]
        cases f <;> rfl

end Members

/-! ## What the worker writes -/

section Save

variable {decodeString : GoString → Except GoString GoString}

/-- With content for every file name, the entries are written as they stand. -/
private theorem mapM_entryWrites (dir : GoString) (es : List FileEntry)
    (hcontent : ∀ e ∈ es, e.filename.trimSpace ≠ [] → e.content ≠ []) :
    ∃ wss, es.mapM (entryWrites dir) = .ok wss ∧
      ∀ e ∈ es, e.filename.trimSpace ≠ [] →
        (GoPath.join [dir, e.filename], e.content) ∈ wss.flatten := by
  induction es with
  | nil => exact ⟨[], rfl, nofun⟩
  | cons e es ih =>
      obtain ⟨wss, hwss, hmem⟩ := ih fun e' he' =>
        hcontent e' (List.mem_cons_of_mem e he')
      obtain ⟨ws, hws, hown⟩ : ∃ ws, entryWrites dir e = .ok ws ∧
          (e.filename.trimSpace ≠ [] →
            (GoPath.join [dir, e.filename], e.content) ∈ ws) := by
        unfold entryWrites
        by_cases hblank : e.filename.trimSpace = []
        · exact ⟨[], if_pos hblank, fun hname => absurd hblank hname⟩
        · have hne := hcontent e List.mem_cons_self hblank
          refine ⟨_, ?_, fun _ => List.mem_singleton_self _⟩
          rw [if_neg hblank, if_neg hne]
      refine ⟨ws :: wss, ?_, fun e' he' hname => ?_⟩
      · rw [List.mapM_cons, hws, hwss]
        rfl
      · rw [List.flatten_cons, List.mem_append]
        cases List.mem_cons.mp he' with
        | inl heq =>
            subst heq
            exact .inl (hown hname)
        | inr hlater => exact .inr (hmem e' hlater hname)

/-- An action without combined files, whose files are distinct and have
content, writes that content. -/
theorem save_writes {action : SaveAction} {payload : Payload}
    {pkcs12 : GoString} (hsingle : action.combinedFiles = [])
    (hdistinct : (outputFiles action).Nodup)
    (hpkcs12 : pkcs12Bytes decodeString payload = .ok pkcs12)
    (hcontent : ∀ e ∈ entries action payload pkcs12,
      e.filename.trimSpace ≠ [] → e.content ≠ [])
    (o : Oracle Worker.Call) (files : Sys Files) :
    (save decodeString action payload).wp o files fun result files' =>
      (o = .quiet → result = .ok ()) ∧
      (result = .ok () → ∀ e ∈ entries action payload pkcs12,
        e.filename.trimSpace ≠ [] →
          files'.state (GoPath.join [GoPath.clean action.certDir, e.filename]) =
            some e.content) := by
  obtain ⟨wss, hwss, hmem⟩ := mapM_entryWrites
    (GoPath.clean action.certDir) (entries action payload pkcs12) hcontent
  have hws : saveWrites decodeString action payload = .ok wss.flatten := by
    unfold saveWrites
    rw [hpkcs12, hsingle]
    simp only [hwss, bind, Except.bind, List.mapM_nil, pure, Except.pure,
      List.flatten_nil, List.append_nil]
  have hkeys : (wss.flatten.map Prod.fst).Nodup := by
    rw [saveWrites_keys hws]
    exact hdistinct
  refine Prog.wp_mono (save_carriesOut hws o files) ?_
  rintro result files' ⟨_, hall, hquiet⟩
  refine ⟨hquiet, fun hok e he hname => ?_⟩
  rw [hall hok, Overwrite.carriedOut_apply,
    Overwrite.outcome_of_mem hkeys (hmem e he hname)]
  rfl

end Save

/-- The artifacts of a delivery with the file names of an action. -/
def artifacts (action : SaveAction) (m : Material) (archive : GoString) :
    List (GoString × GoString) :=
  [(action.certFile, m.cert), (action.chainFile, m.chain),
    (action.fullchainFile, m.fullchain), (action.keyFile, m.key),
    (action.pkcs12File, archive)]

/-- The action has no combined files, names distinct files, and names only
artifacts the format provides. -/
structure Provided (format : GoString) (action : SaveAction) : Prop where
  single : action.combinedFiles = []
  distinct : (outputFiles action).Nodup
  provided : action.pkcs12File.trimSpace ≠ [] → format = certificateFormatPKCS12

/-! ## The round trip -/

/-- The archive comes back from the payload, and no archive from none. -/
theorem pkcs12Bytes_received (m : Material) (format archive : GoString) :
    pkcs12Bytes Base64.decodeString (received m format (Base64.encode archive)) =
      .ok archive := by
  have htrim : (Base64.encode archive).trimSpace = Base64.encode archive :=
    trimSpace_of_ascii fun c hc =>
      have hplain := Base64.encode_ascii archive c hc
      ⟨hplain.1, hplain.2.1⟩
  unfold pkcs12Bytes received
  simp only [htrim, ite_self]
  split
  · rw [Base64.decodeString_encode]
    rfl
  · next hempty =>
    by_cases harchive : archive = []
    · rw [harchive]
    · exact absurd (Base64.encode_ne_nil harchive) hempty

theorem resolveCertificateFormat_cases (lib : Library)
    (format body : GoString) :
    resolveCertificateFormat lib format body = certificateFormatPEM ∨
      resolveCertificateFormat lib format body = certificateFormatPKCS12 := by
  unfold resolveCertificateFormat
  dsimp only
  split_ifs <;> simp

/-- `encoding/json` can carry the payload. -/
private theorem certificatePayload_valid {m : Material} {format : GoString}
    (archive : GoString) (htexts : ∀ text ∈ m.contents, text.valid = true)
    (hformat : format = certificateFormatPEM ∨ format = certificateFormatPKCS12) :
    ((certificatePayload m format (Base64.encode archive)).map Prod.fst).Nodup ∧
      ∀ e ∈ certificatePayload m format (Base64.encode archive),
        e.1.valid = true ∧ e.2.valid = true := by
  have hformat' : format.valid = true := by
    rcases hformat with rfl | rfl <;> decide
  have harchive : (Base64.encode archive).valid = true :=
    valid_of_ascii fun c hc => (Base64.encode_ascii archive c hc).1
  simp only [Material.contents, List.forall_mem_cons] at htexts
  obtain ⟨hcert, hchain, hfullchain, hkey, _⟩ := htexts
  have hnames : ∀ name ∈ [lit "cert", lit "chain", lit "fullchain",
      lit "private_key", lit "certificate", lit "certificate_format",
      lit "pkcs12", lit "pkcs12_base64"], name.valid = true := by
    decide
  simp only [List.forall_mem_cons] at hnames
  obtain ⟨h₁, h₂, h₃, h₄, h₅, h₆, h₇, h₈, _⟩ := hnames
  unfold certificatePayload
  split
  · refine ⟨by simp only [List.map_append, List.map_cons]; decide, ?_⟩
    simp only [List.cons_append, List.nil_append, List.forall_mem_cons]
    exact ⟨⟨h₁, hcert⟩, ⟨h₂, hchain⟩, ⟨h₃, hfullchain⟩, ⟨h₄, hkey⟩,
      ⟨h₅, hfullchain⟩, ⟨h₆, hformat'⟩, ⟨h₇, harchive⟩, ⟨h₈, harchive⟩,
      nofun⟩
  · refine ⟨by simp only [List.map_append, List.map_cons]; decide, ?_⟩
    simp only [List.append_nil, List.forall_mem_cons]
    exact ⟨⟨h₁, hcert⟩, ⟨h₂, hchain⟩, ⟨h₃, hfullchain⟩, ⟨h₄, hkey⟩,
      ⟨h₅, hfullchain⟩, ⟨h₆, hformat'⟩, nofun⟩

/-- The archive a task delivers: the encoded one in the PKCS#12 format, none
otherwise. -/
structure Delivers (codec : Codec) (task : Schema.Task) (m : Material)
    (archive : GoString) : Prop where
  encoded : taskFormat codec task = certificateFormatPKCS12 →
    codec.encode m = .ok archive
  none : taskFormat codec task ≠ certificateFormatPKCS12 → archive = []

/-- What a blank template is rendered to. -/
theorem renderMaterial_blank {codec : Codec} {task : Schema.Task}
    {m : Material} {archive : GoString}
    (hblank : task.body.string.trimSpace = [])
    (harchive : Delivers codec task m archive) :
    renderMaterial codec task m =
      (codec.json.marshal (certificatePayload m (taskFormat codec task)
        (Base64.encode archive))).mapError
          (.because "failed to encode certificate payload") := by
  unfold renderMaterial
  by_cases hformat : taskFormat codec task = certificateFormatPKCS12
  · simp only [if_pos hformat, if_pos hblank, buildPKCS12Base64,
      harchive.encoded hformat]
    rfl
  · simp only [if_neg hformat, if_pos hblank, harchive.none hformat]
    rfl

/-- An authorized POST request is executed with the payload of its body. -/
theorem task_executed_payload {decode : GoString → Except GoString Payload}
    (execute : Payload → Except GoString Unit) {secret : GoString}
    {r : Request} {payload : Payload} (hmethod : r.method = lit "POST")
    (hauth : isAuthorized r secret = true) (hlength : r.contentLength ≠ 0)
    (hdecode : decode r.body = .ok payload) :
    (Webhook.task decode execute secret r).executed = some payload := by
  unfold Webhook.task
  simp only [hmethod, hauth, hlength, hdecode, ne_eq, not_true_eq_false,
    not_false_eq_true, if_false, if_true]
  cases execute payload <;> rfl

/-- **The certificate material of the backend reaches the worker's files.**
The body of a task with a blank template, if it is within the worker's limit,
is executed with a payload that `save` writes byte for byte. -/
theorem material_reaches_files (codec : Codec) (task : Schema.Task)
    (action : SaveAction) (m : Material) (archive : GoString)
    (o : Oracle Schema.Call) (s : Sys World)
    (hload : (loadCertificateMaterial task.recordID o s).1 = .ok m)
    (hinclude : task.includeCertificate = true)
    (hblank : task.body.string.trimSpace = [])
    (htexts : ∀ text ∈ m.contents, text ≠ [] ∧ text.valid = true)
    (harchive : Delivers codec task m archive)
    (hsome : taskFormat codec task = certificateFormatPKCS12 → archive ≠ [])
    (hjson : codec.json.RoundTrips (certificatePayload m
      (taskFormat codec task) (Base64.encode archive)))
    (haction : Provided (taskFormat codec task) action) :
    ∃ body, (renderBody codec task o s).1 = .ok body ∧
      (body.length ≤ maxBody →
        ∀ (execute : Payload → Except GoString Unit) (secret : GoString)
          (r : Request), r.method = lit "POST" →
          isAuthorized r secret = true → r.body = body →
          (r.contentLength = 0 → r.body = []) →
            ∃ payload, (Webhook.task (decodePayload codec.json) execute secret
                r).executed = some payload ∧
              ∀ (o' : Oracle Worker.Call) (files : Sys Files),
                (save Base64.decodeString action payload).wp o' files
                  fun result files' =>
                    (o' = .quiet → result = .ok ()) ∧
                    (result = .ok () → ∀ f ∈ artifacts action m archive,
                      f.1.trimSpace ≠ [] →
                        files'.state (GoPath.join
                          [GoPath.clean action.certDir, f.1]) =
                            some f.2)) := by
  have hformat := resolveCertificateFormat_cases codec.lib
    task.certificateFormat task.body.string
  obtain ⟨hnodup, hvalid⟩ := certificatePayload_valid archive
    (fun text htext => (htexts text htext).2) hformat
  obtain ⟨body, found, hmarshal, hne, hmembers, hperm⟩ := hjson hnodup hvalid
  refine ⟨body, ?_, fun hlimit execute secret r hmethod hauth hbody hlength => ?_⟩
  · have hrender : renderMaterial codec task m = .ok body := by
      rw [renderMaterial_blank hblank harchive, hmarshal]
      rfl
    have hrun : (renderBody codec task).wp o s fun r _ => r = .ok body := by
      unfold renderBody
      rw [if_neg (not_not.mpr hinclude)]
      refine Prog.wp_bind_of (R := fun r _ => r = .ok m) ?_ nofun ?_
      · rw [Prog.wp_mapError]
        exact congrArg (Except.mapError GoError.wrap) hload
      · rintro loaded t hloaded
        obtain rfl := Except.ok.inj hloaded
        exact hrender
    exact hrun
  · have hdecode : decodePayload codec.json r.body =
        .ok (received m (taskFormat codec task) (Base64.encode archive)) := by
      unfold decodePayload
      rw [hbody, List.take_of_length_le hlimit,
        decide_eq_false (Nat.not_lt.mpr hlimit), hmembers]
      exact foldlM_certificatePayload hperm
    have hlength' : r.contentLength ≠ 0 := fun h =>
      hne (hbody.symm.trans (hlength h))
    refine ⟨_, task_executed_payload execute hmethod hauth hlength' hdecode,
      fun o' files => ?_⟩
    have hcontent : ∀ e ∈ entries action (received m (taskFormat codec task)
        (Base64.encode archive)) archive,
          e.filename.trimSpace ≠ [] → e.content ≠ [] := by
      simp only [Material.contents, List.forall_mem_cons] at htexts
      obtain ⟨hcert, hchain, hfullchain, hkey, _⟩ := htexts
      simp only [entries, received, List.forall_mem_cons]
      exact ⟨fun _ => hcert.1, fun _ => hchain.1, fun _ => hfullchain.1,
        fun _ => hkey.1, fun hname => hsome (haction.provided hname), nofun⟩
    refine Prog.wp_mono (save_writes haction.single haction.distinct
      (pkcs12Bytes_received m _ archive) hcontent o' files) ?_
    rintro result files' ⟨hquiet, hfiles⟩
    refine ⟨hquiet, fun hok => ?_⟩
    have hwritten := hfiles hok
    simp only [entries, received, List.forall_mem_cons] at hwritten
    obtain ⟨hcert, hchain, hfullchain, hkey, hpkcs12, _⟩ := hwritten
    simp only [artifacts, List.forall_mem_cons]
    exact ⟨hcert, hchain, hfullchain, hkey, hpkcs12, nofun⟩

/-! ## A delivery -/

private def quote : UInt8 := 0x22

/-- The members of an object of texts without escapes. -/
private def pairs : List GoString → List (GoString × Value)
  | name :: _ :: text :: _ :: rest => (name, .text text) :: pairs rest
  | _ => []

/-- `encoding/json` on texts that need no escapes. -/
private def plainJson : Json where
  marshal := fun entries => .ok (lit "\x7b" ++
    join ((entries.insertionSort fun e e' => e.1 ≤ e'.1).map fun e =>
      [quote] ++ e.1 ++ [quote] ++ lit ":" ++ [quote] ++ e.2 ++ [quote]) "," ++
    lit "\x7d")
  marshalText := fun s => .ok ([quote] ++ s ++ [quote])
  members := fun body _ => .ok (pairs ((body.splitOn quote).drop 1))

private def plainCodec (archive : GoString) : Codec where
  lib := ⟨id, id, fun _ => .ok Headers.empty⟩
  json := plainJson
  encode := fun _ => .ok archive

/-- A record's issued certificate. -/
private def issuedMaterial : Material := ⟨"leaf", "issuer", "leaf issuer", "key"⟩

private def issuedWorld : World :=
  { World.init fun _ _ => none with
    certificates := Table.empty.insert fun id =>
      ⟨id, 1, "www.example.org", "valid", none, none, none, none,
        "certs/fullchain.pem", "certs/privkey.pem"⟩
    files := fun path =>
      if path = lit "certs/cert.pem" then some issuedMaterial.cert
      else if path = lit "certs/chain.pem" then some issuedMaterial.chain
      else if path = lit "certs/fullchain.pem" then
        some issuedMaterial.fullchain
      else if path = lit "certs/privkey.pem" then some issuedMaterial.key
      else none }

private def pkcs12Task : Schema.Task :=
  ⟨1, 1, "worker", triggerCert, "POST", "https://worker.example.org/task", none,
    none, true, true, none, none, none, "pkcs12"⟩

/-- The leaf, the key and the archive. -/
private def saveAll : SaveAction :=
  ⟨"/etc/ssl", "cert.pem", [], [], "key.pem", "bundle.pfx", []⟩

private theorem saveAll_provided :
    Provided certificateFormatPKCS12 saveAll where
  single := rfl
  distinct := by decide +kernel
  provided := fun _ => rfl

private def archiveBytes : GoString := [0x30, 0x82, 0x00, 0xFF]

private def delivery (body : GoString) : Request :=
  ⟨"POST", [lit "Bearer secret"], body.length, body⟩

theorem material_reaches_files_pkcs12 :
    ∃ body payload,
      (renderBody (plainCodec archiveBytes) pkcs12Task .quiet
        ⟨issuedWorld, 0⟩).1 = .ok body ∧
      (Webhook.task (decodePayload plainJson) (fun _ => .ok ()) "secret"
        (delivery body)).executed = some payload ∧
      (save Base64.decodeString saveAll payload).wp .quiet ⟨fun _ => none, 0⟩
        fun result files' => result = .ok () ∧
          files'.state "/etc/ssl/cert.pem" = some (lit "leaf") ∧
          files'.state "/etc/ssl/key.pem" = some (lit "key") ∧
          files'.state "/etc/ssl/bundle.pfx" = some archiveBytes := by
  have hformat : taskFormat (plainCodec archiveBytes) pkcs12Task =
      certificateFormatPKCS12 := by decide
  obtain ⟨body, hrender, hreach⟩ := material_reaches_files
    (plainCodec archiveBytes) pkcs12Task saveAll issuedMaterial archiveBytes
    .quiet ⟨issuedWorld, 0⟩ (by decide +kernel) rfl (by decide)
    (by decide) ⟨fun _ => rfl, fun h => absurd hformat h⟩ (fun _ => nofun)
    (fun _ _ => ⟨_, _, rfl, by decide, rfl, by decide +kernel⟩)
    (hformat ▸ saveAll_provided)
  have hsmall : ∀ b ∈ (renderBody (plainCodec archiveBytes) pkcs12Task .quiet
      ⟨issuedWorld, 0⟩).1.toOption, b.length ≤ maxBody := by decide +kernel
  have hheader : lit "Bearer secret" = bearerPrefix ++ lit "secret" := by decide
  have hauth : isAuthorized (delivery body) "secret" = true :=
    (isAuthorized_iff _ _).mpr ⟨"secret", hheader, secureEqual_self _⟩
  have hlength : (delivery body).contentLength = 0 →
      (delivery body).body = [] := fun h =>
    List.length_eq_zero_iff.mp (Int.ofNat.inj h)
  obtain ⟨payload, hexecuted, hsave⟩ := hreach
    (hsmall body (by rw [hrender]; rfl)) (fun _ => .ok ()) "secret"
    (delivery body) rfl hauth rfl hlength
  refine ⟨body, payload, hrender, hexecuted, ?_⟩
  refine Prog.wp_mono (hsave .quiet ⟨fun _ => none, 0⟩) ?_
  rintro result files' ⟨hquiet, hfiles⟩
  have hwritten := hfiles (hquiet rfl)
  simp only [artifacts, List.forall_mem_cons] at hwritten
  obtain ⟨hcert, _, _, hkey, hpkcs12, _⟩ := hwritten
  exact ⟨hquiet rfl, hcert (by decide), hkey (by decide), hpkcs12 (by decide)⟩

/-- An archive without bytes is encoded to the empty text, which `renderBody`
leaves out, and `save` finds no PKCS#12 file to write. -/
theorem empty_archive_is_not_written :
    (loadCertificateMaterial pkcs12Task.recordID .quiet ⟨issuedWorld, 0⟩).1 =
        .ok issuedMaterial ∧
      taskFormat (plainCodec []) pkcs12Task = certificateFormatPKCS12 ∧
      (plainCodec []).encode issuedMaterial = .ok [] ∧
      Provided certificateFormatPKCS12 saveAll ∧
      ∃ body payload,
        (renderBody (plainCodec []) pkcs12Task .quiet ⟨issuedWorld, 0⟩).1 =
            .ok body ∧
          (Webhook.task (decodePayload plainJson) (fun _ => .ok ()) "secret"
            (delivery body)).executed = some payload ∧
          (save Base64.decodeString saveAll payload .quiet
            ⟨fun _ => none, 0⟩).1 = .error (.payloadContainsNo "pkcs12") := by
  refine ⟨by decide +kernel, by decide, rfl, saveAll_provided, ?_⟩
  obtain ⟨body, hbody⟩ := Option.isSome_iff_exists.mp
    (show (renderBody (plainCodec []) pkcs12Task .quiet
      ⟨issuedWorld, 0⟩).1.toOption.isSome = true by decide +kernel)
  have hend : ∀ b ∈ (renderBody (plainCodec []) pkcs12Task .quiet
      ⟨issuedWorld, 0⟩).1.toOption,
      (renderBody (plainCodec []) pkcs12Task .quiet ⟨issuedWorld, 0⟩).1 =
          .ok b ∧
        (Webhook.task (decodePayload plainJson) (fun _ => .ok ()) "secret"
          (delivery b)).executed =
            some (received issuedMaterial certificateFormatPKCS12 []) := by
    decide +kernel
  obtain ⟨hrender, hexecuted⟩ := hend body hbody
  exact ⟨body, _, hrender, hexecuted, by decide +kernel⟩

end Hdns.Ports.CertificateDelivery

import Hdns.Ports.CertificateDelivery
import Hdns.Verified.JsonString

/-!
# The templates of the tasks

A template that is not blank is sent with its placeholders replaced.  A
placeholder comes in two forms: one puts in the text as it is, the other one the
text as it stands in a JSON string.  Templates are JSON documents more often than
not, and what the receiver decodes is meant to hold the texts themselves.

## Main results

* `renderMaterial_eq` — what a template that is not blank is rendered to.
* `template_rendered` — the parts of a template, and what the result decodes to.
* `archive_substituted_iff` — which templates that ask for an archive get one.
-/

namespace Hdns.Ports.Templates

open Hdns.Verified
open Hdns.Verified.GoString
open Hdns.Verified.Replacer
open Hdns.Verified.Json (Piece Slot Reads Unescaped quote quoteBody pieceKeys
  unquote template decode reads_quoteBody decode_replace)
open Hdns.Ports.Schema
open Hdns.Ports.CertificateFiles
open Hdns.Ports.TaskEdits
open Hdns.Ports.CertificateDelivery (Codec placeholder replacements jsonEscape
  taskFormat buildPKCS12Base64 renderMaterial renderBody Delivers
  resolveCertificateFormat_cases)

/-! ## The placeholders -/

/-- The names of the texts. -/
def names : List String :=
  ["cert", "chain", "fullchain", "certificate", "private_key", "pkcs12",
    "pkcs12_base64", "certificate_format"]

/-- The placeholders that put a text in as it is. -/
def plainPlaceholders : List GoString := names.map placeholder

/-- The placeholders that escape it. -/
def jsonPlaceholders : List GoString :=
  names.map fun name => placeholder (name ++ "_json")

def placeholders : List GoString := plainPlaceholders ++ jsonPlaceholders

/-- What a name stands for. -/
def text (m : Material) (format pkcs12Base64 : GoString) : String → GoString
  | "cert" => m.cert
  | "chain" => m.chain
  | "fullchain" => m.fullchain
  | "certificate" => m.fullchain
  | "private_key" => m.key
  | "pkcs12" => pkcs12Base64
  | "pkcs12_base64" => pkcs12Base64
  | "certificate_format" => format
  | _ => []

/-- The placeholders with the texts they name, both forms alike. -/
def texts (m : Material) (format pkcs12Base64 : GoString) :
    List (GoString × GoString) :=
  (names.map fun name => (placeholder name, text m format pkcs12Base64 name)) ++
    names.map fun name =>
      (placeholder (name ++ "_json"), text m format pkcs12Base64 name)

section Placeholders

variable {json : CertificateDelivery.Json} {m : Material}
  {format pkcs12Base64 : GoString}

theorem replacements_eq :
    replacements json m format pkcs12Base64 =
      (names.map fun name =>
        (placeholder name, text m format pkcs12Base64 name)) ++
      names.map fun name => (placeholder (name ++ "_json"),
        jsonEscape json (text m format pkcs12Base64 name)) := rfl

/-- No placeholder begins another one. -/
theorem separate_placeholders : Separate placeholders where
  nonempty := by decide
  prefixFree := by decide

theorem nodup_placeholders : placeholders.Nodup := by decide

/-- The placeholders can only stand inside literals. -/
theorem slot_placeholders : ∀ k ∈ placeholders, Slot k := by
  have hslots : ∀ k ∈ placeholders, k = 0x7B :: k.drop 1 ∧
      (∀ b ∈ k.drop 1, Unescaped b) ∧
        Verified.Json.run .between (k.drop 1) = none := by
    decide +kernel
  intro k hk
  obtain ⟨heq, hunescaped, hrun⟩ := hslots k hk
  rw [heq]
  exact .of_brace hunescaped hrun

end Placeholders

/-! ## What a template is rendered to -/

/-- `json.Marshal` writes strings as `encoding/json` does. -/
def Quotes (codec : Codec) : Prop :=
  codec.json.marshalText = fun s => .ok (quote s)

theorem jsonEscape_eq {codec : Codec} (hquotes : Quotes codec) (s : GoString) :
    jsonEscape codec.json s = quoteBody s := by
  have hlength : ¬(quote s).length < 2 := by
    simp [quote]
  rw [jsonEscape, hquotes]
  show (if (quote s).length < 2 then s else ((quote s).drop 1).dropLast) = _
  rw [if_neg hlength]
  exact List.dropLast_concat

/-- What a template that is not blank is rendered to. -/
theorem renderMaterial_eq {codec : Codec} {task : Schema.Task} {m : Material}
    {out : GoString} (hbody : task.body.string.trimSpace ≠ [])
    (hout : renderMaterial codec task m = .ok out) :
    ∃ archive, Delivers codec task m archive ∧
      out = task.body.string.replacer (replacements codec.json m
        (taskFormat codec task) (Base64.encode archive)) := by
  unfold renderMaterial at hout
  by_cases hformat : taskFormat codec task = certificateFormatPKCS12
  · simp only [if_pos hformat, if_neg hbody] at hout
    obtain ⟨pkcs12Base64, hbuild, hreplaced⟩ := Prog.except_bind_eq_ok.mp hout
    obtain ⟨archive, hencode, hbase64⟩ := Prog.except_bind_eq_ok.mp
      (Prog.mapError_eq_ok.mp hbuild)
    refine ⟨archive, ⟨fun _ => hencode, fun hne => absurd hformat hne⟩, ?_⟩
    rw [← Except.ok.inj hreplaced, ← Except.ok.inj hbase64]
  · simp only [if_neg hformat, if_neg hbody] at hout
    refine ⟨[], ⟨fun h => absurd h hformat, fun _ => rfl⟩, ?_⟩
    exact (Except.ok.inj hout).symm

/-- A task that includes the certificate renders the material it has loaded. -/
theorem renderBody_ok {codec : Codec} {task : Schema.Task}
    {o : Oracle Schema.Call} {s t : Sys World} {out : GoString}
    (hinclude : task.includeCertificate = true)
    (hrun : renderBody codec task o s = (.ok out, t)) :
    ∃ m, (loadCertificateMaterial task.recordID o s).1 = .ok m ∧
      renderMaterial codec task m = .ok out := by
  have hspec : (renderBody codec task).wp o s fun r _ => r = .ok out →
      ∃ m, (loadCertificateMaterial task.recordID o s).1 = .ok m ∧
        renderMaterial codec task m = .ok out := by
    unfold renderBody
    rw [if_neg (not_not.mpr hinclude), Prog.wp_bind, Prog.wp_mapError,
      Prog.wp]
    cases hload : (loadCertificateMaterial task.recordID o s).1 with
    | error err => rintro ⟨⟩
    | ok m => exact fun hout => ⟨m, rfl, hout⟩
  rw [Prog.wp, hrun] at hspec
  exact hspec rfl

/-- The keys in the pieces of a literal, with the texts they name. -/
def pieceTexts (m : Material) (format pkcs12Base64 : GoString) :
    List (List Piece × List Piece) :=
  pieceKeys placeholders fun k =>
    (value (texts m format pkcs12Base64) k).map .raw

/-- What is promised of a rendered template: its text, the values of its
placeholders, and what comes of it. -/
structure Rendered (json : CertificateDelivery.Json) (body : GoString)
    (m : Material) (format pkcs12Base64 out : GoString) : Prop where
  /-- A template has one splitting into placeholders and other bytes. -/
  parts : ∃! ps, Splits placeholders body ps
  /-- Every placeholder of it is replaced, and nothing else is. -/
  once : ∀ ps, Splits placeholders body ps →
    out = ps.flatMap (fill (replacements json m format pkcs12Base64))
  /-- The order of the replacer's pairs does not matter. -/
  order : ∀ pairs, pairs.Perm (replacements json m format pkcs12Base64) →
    body.replacer pairs = out
  /-- A JSON document with placeholders of the second form gives a document
  whose strings are those of the template with the texts put in. -/
  document : (∀ s ∈ m.contents, s.valid = true) →
    (∀ k ∈ plainPlaceholders, ¬k <:+: body) →
      ∀ v, template body = some v →
        decode out = some (v.map fun ps =>
          unquote (replace (pieceTexts m format pkcs12Base64) ps))

section Rendering

variable {codec : Codec} {task : Schema.Task} {m : Material}

/-- Every text that is put in is valid. -/
theorem text_valid {format pkcs12Base64 : GoString}
    (hcontents : ∀ s ∈ m.contents, s.valid = true)
    (hformat : format.valid = true) (harchive : pkcs12Base64.valid = true) :
    ∀ name ∈ names, (text m format pkcs12Base64 name).valid = true := by
  simp only [Material.contents, List.forall_mem_cons] at hcontents
  obtain ⟨hcert, hchain, hfullchain, hkey, -⟩ := hcontents
  simp only [names, List.forall_mem_cons]
  exact ⟨hcert, hchain, hfullchain, hfullchain, hkey, harchive, harchive,
    hformat, List.forall_mem_nil _⟩

/-- The values of a placeholder of the second form. -/
theorem value_json (json : CertificateDelivery.Json) (m : Material)
    (format pkcs12Base64 : GoString) {name : String} (hname : name ∈ names) :
    value (replacements json m format pkcs12Base64)
        (placeholder (name ++ "_json")) =
      jsonEscape json (text m format pkcs12Base64 name) ∧
    value (texts m format pkcs12Base64) (placeholder (name ++ "_json")) =
      text m format pkcs12Base64 name := by
  have hreplaced : (placeholder (name ++ "_json"),
      jsonEscape json (text m format pkcs12Base64 name)) ∈
        replacements json m format pkcs12Base64 := by
    rw [replacements_eq]
    exact List.mem_append_right _ (List.mem_map.mpr ⟨name, hname, rfl⟩)
  have htext : (placeholder (name ++ "_json"),
      text m format pkcs12Base64 name) ∈ texts m format pkcs12Base64 :=
    List.mem_append_right _ (List.mem_map.mpr ⟨name, hname, rfl⟩)
  have hkeys : (keysOf (replacements json m format pkcs12Base64)).Nodup :=
    nodup_placeholders
  have hkeys' : (keysOf (texts m format pkcs12Base64)).Nodup :=
    nodup_placeholders
  exact ⟨value_eq_of_mem hkeys hreplaced, value_eq_of_mem hkeys' htext⟩

/-- **A rendered template**. -/
theorem rendered (hquotes : Quotes codec) {body format archive : GoString}
    (hformat : format.valid = true) :
    Rendered codec.json body m format (Base64.encode archive)
      (body.replacer (replacements codec.json m format
        (Base64.encode archive))) where
  parts := ⟨parts placeholders body, splits_parts separate_placeholders body,
    fun ps hps => (splits_iff separate_placeholders).mp hps⟩
  once := by
    intro ps hps
    rw [replacer_eq, (splits_iff separate_placeholders).mp hps]
    rfl
  order := by
    intro pairs hperm
    rw [replacer_eq, replacer_eq]
    exact replace_perm hperm separate_placeholders nodup_placeholders body
  document := by
    intro hcontents hplain v hv
    have harchive : (Base64.encode archive).valid = true :=
      valid_of_ascii fun c hc => (Base64.encode_ascii archive c hc).1
    have hvalid := text_valid hcontents hformat harchive
    have hreads : ∀ k ∈ placeholders, k <:+: body →
        Reads (value (replacements codec.json m format
            (Base64.encode archive)) k)
          (value (texts m format (Base64.encode archive)) k) := by
      intro k hk hmem
      cases List.mem_append.mp hk with
      | inl hk => exact absurd hmem (hplain k hk)
      | inr hk =>
          obtain ⟨name, hname, rfl⟩ := List.mem_map.mp hk
          have hvalue := value_json codec.json m format (Base64.encode archive)
            hname
          rw [hvalue.1, hvalue.2, jsonEscape_eq hquotes]
          exact reads_quoteBody (hvalid name hname)
    rw [replacer_eq]
    exact @decode_replace (replacements codec.json m format
      (Base64.encode archive)) _ separate_placeholders slot_placeholders body
      hreads v hv

end Rendering

/-! ## Runs on concrete inputs -/

/-- `encoding/json` on maps and strings; what is read is of no interest here. -/
def sampleJson : CertificateDelivery.Json where
  marshal := fun entries => .ok (lit "\x7b" ++
    join ((entries.insertionSort fun e e' => e.1 ≤ e'.1).map fun e =>
      quote e.1 ++ lit ":" ++ quote e.2) "," ++ lit "\x7d")
  marshalText := fun s => .ok (quote s)
  members := fun _ _ => .ok []

/-- An encoder whose archives are two bytes. -/
def sampleCodec : Codec where
  lib := ⟨id, foldCase, fun _ => .ok Headers.empty⟩
  json := sampleJson
  encode := fun _ => .ok [0x30, 0x00]

/-- The material of a record. -/
def sampleMaterial : Material := ⟨"A\nB", "C", "A\nBC", "\"K\""⟩

def sampleCertificate (id : Int) : Certificate :=
  ⟨id, 1, "www.example.org", "valid", none, none, none, none,
    "certs/fullchain.pem", "certs/privkey.pem"⟩

/-- A world with the certificate of one record. -/
def sampleWorld : World :=
  { World.init fun _ _ => none with
    certificates := Table.empty.insert sampleCertificate
    files := fun path =>
      if path = lit "certs/cert.pem" then some sampleMaterial.cert
      else if path = lit "certs/chain.pem" then some sampleMaterial.chain
      else if path = lit "certs/fullchain.pem" then
        some sampleMaterial.fullchain
      else if path = lit "certs/privkey.pem" then some sampleMaterial.key
      else none }

/-- A task that sends the certificate, by its template and format. -/
def sampleTask (body format : GoString) : Schema.Task :=
  ⟨1, 1, "hook", triggerCert, "POST", "https://hook.example.org", none,
    some body, true, true, none, none, none, format⟩

/-! ## Rendered templates -/

/-- **A template that is not blank** is rendered in one pass over it, whatever
the order of the placeholders, and a JSON document with escaping placeholders
gives the document it stands for. -/
theorem template_rendered {codec : Codec} (hquotes : Quotes codec)
    {task : Schema.Task} {o : Oracle Schema.Call} {s t : Sys World}
    {out : GoString} (hinclude : task.includeCertificate = true)
    (hbody : task.body.string.trimSpace ≠ [])
    (hrun : renderBody codec task o s = (.ok out, t)) :
    ∃ m archive, (loadCertificateMaterial task.recordID o s).1 = .ok m ∧
      Delivers codec task m archive ∧
        Rendered codec.json task.body.string m (taskFormat codec task)
          (Base64.encode archive) out := by
  obtain ⟨m, hload, hrender⟩ := renderBody_ok hinclude hrun
  obtain ⟨archive, hdelivers, rfl⟩ := renderMaterial_eq hbody hrender
  have hformat : (taskFormat codec task).valid = true := by
    cases resolveCertificateFormat_cases codec.lib task.certificateFormat
        task.body.string with
    | inl hpem => rw [taskFormat, hpem]; decide
    | inr hpkcs12 => rw [taskFormat, hpkcs12]; decide
  exact ⟨m, archive, hload, hdelivers, rendered hquotes hformat⟩

/-- The template of the witness. -/
def sampleBody : GoString := "\x7b\"crt\": \"\x7b\x7bcert_json\x7d\x7d\"\x7d"

theorem template_rendered_sample :
    ∃ m archive, (loadCertificateMaterial 1 .quiet ⟨sampleWorld, 0⟩).1 = .ok m ∧
      Delivers sampleCodec (sampleTask sampleBody "pem") m archive ∧
        Rendered sampleJson sampleBody m "pem" (Base64.encode archive)
          "\x7b\"crt\": \"A\\nB\"\x7d" := by
  have hrun : renderBody sampleCodec (sampleTask sampleBody "pem") .quiet
      ⟨sampleWorld, 0⟩ = (.ok "\x7b\"crt\": \"A\\nB\"\x7d",
        (renderBody sampleCodec (sampleTask sampleBody "pem") .quiet
          ⟨sampleWorld, 0⟩).2) := by
    refine Prod.ext ?_ rfl
    decide +kernel
  have hquotes : Quotes sampleCodec := rfl
  have hformat : taskFormat sampleCodec (sampleTask sampleBody "pem") =
      lit "pem" := by
    decide +kernel
  have hrendered := template_rendered hquotes rfl (by decide +kernel) hrun
  rw [hformat] at hrendered
  exact hrendered

/-- The text of a value that is a string. -/
def stringOf {α : Type} : Verified.Json.Value α → Option α
  | .string a => some a
  | _ => none

/-- A JSON string with a placeholder one brace of which is an escape. -/
def escapedBody : GoString := "\"\\u007b\x7bcert_json\x7d\x7d\""

/-- A template of one blank is not rendered but replaced by the default
document; and a placeholder that only the decoded template has is not
replaced. -/
theorem templates_not_rendered :
    (∃ out, (renderBody sampleCodec (sampleTask " " "pem") .quiet
        ⟨sampleWorld, 0⟩).1 = .ok out ∧
      out ≠ (lit " ").replacer
        (replacements sampleJson sampleMaterial "pem" [])) ∧
    ∃ out, (renderBody sampleCodec (sampleTask escapedBody "pem") .quiet
        ⟨sampleWorld, 0⟩).1 = .ok out ∧
      decode out ≠ (decode escapedBody).map (Verified.Json.Value.map fun s =>
        s.replacer (texts sampleMaterial "pem" [])) := by
  constructor
  · have hblank : (renderBody sampleCodec (sampleTask " " "pem") .quiet
        ⟨sampleWorld, 0⟩).1.toOption.all fun out =>
          out ≠ (lit " ").replacer
            (replacements sampleJson sampleMaterial "pem" []) := by
      decide +kernel
    cases hrender : (renderBody sampleCodec (sampleTask " " "pem") .quiet
        ⟨sampleWorld, 0⟩).1 with
    | error err =>
        have hok : (renderBody sampleCodec (sampleTask " " "pem") .quiet
            ⟨sampleWorld, 0⟩).1.isOk = true := by
          decide +kernel
        rw [hrender] at hok
        cases hok
    | ok out =>
        rw [hrender] at hblank
        exact ⟨out, rfl, of_decide_eq_true hblank⟩
  · have hrender : (renderBody sampleCodec (sampleTask escapedBody "pem")
        .quiet ⟨sampleWorld, 0⟩).1 = .ok escapedBody := by
      decide +kernel
    have hdiffers : (decode escapedBody).bind stringOf ≠
        ((decode escapedBody).map (Verified.Json.Value.map fun s =>
          s.replacer (texts sampleMaterial "pem" []))).bind stringOf := by
      decide +kernel
    exact ⟨escapedBody, hrender, fun heq => hdiffers
      (congrArg (fun v => Option.bind v stringOf) heq)⟩

/-! ## Templates that ask for an archive -/

/-- The names of the archive. -/
def archiveNames : List String := ["pkcs12", "pkcs12_base64"]

/-- The placeholders of the archive. -/
def archivePlaceholders : List GoString :=
  archiveNames.map placeholder ++
    archiveNames.map fun name => placeholder (name ++ "_json")

/-- The template asks for an archive, and no other format is configured. -/
structure AsksForArchive (lib : Library) (format body : GoString) : Prop where
  placeholder : ∃ k ∈ archivePlaceholders, contains body k = true
  format : lib.toLower format.trimSpace ≠ certificateFormatPEM

instance (lib : Library) (format body : GoString) :
    Decidable (AsksForArchive lib format body) :=
  decidable_of_iff ((∃ k ∈ archivePlaceholders, contains body k = true) ∧
    lib.toLower format.trimSpace ≠ certificateFormatPEM)
    ⟨fun h => ⟨h.1, h.2⟩, fun h => ⟨h.placeholder, h.format⟩⟩

/-- A task whose archive placeholders are filled: the format is PKCS#12, and
every body that is rendered has an archive in their place. -/
structure Served (codec : Codec) (task : Schema.Task) : Prop where
  format : taskFormat codec task = certificateFormatPKCS12
  filled : task.includeCertificate = true →
    ∀ {o : Oracle Schema.Call} {s t : Sys World} {out : GoString},
      renderBody codec task o s = (.ok out, t) →
        ∃ m archive, (loadCertificateMaterial task.recordID o s).1 = .ok m ∧
          codec.encode m = .ok archive ∧ archive ≠ [] ∧
          out = task.body.string.replacer (replacements codec.json m
            (taskFormat codec task) (Base64.encode archive)) ∧
          ∀ k ∈ archivePlaceholders, value (replacements codec.json m
            (taskFormat codec task) (Base64.encode archive)) k ≠ []

section Archive

variable {codec : Codec} {task : Schema.Task}

theorem quoteBody_ne_nil {s : GoString} (hvalid : s.valid = true)
    (hne : s ≠ []) : quoteBody s ≠ [] := by
  intro hnil
  have hreads := (reads_quoteBody hvalid).2
  rw [hnil] at hreads
  exact hne (List.map_eq_nil_iff.mp hreads.symm)

/-- The values of the archive's placeholders are not empty if the archive is
not. -/
theorem value_archive_ne_nil (hquotes : Quotes codec) (m : Material)
    (format : GoString) {archive : GoString} (hne : archive ≠ []) :
    ∀ k ∈ archivePlaceholders, value (replacements codec.json m format
      (Base64.encode archive)) k ≠ [] := by
  have hbase64 := Base64.encode_ne_nil hne
  have hvalid : (Base64.encode archive).valid = true :=
    valid_of_ascii fun c hc => (Base64.encode_ascii archive c hc).1
  have hescaped : jsonEscape codec.json (Base64.encode archive) ≠ [] := by
    rw [jsonEscape_eq hquotes]
    exact quoteBody_ne_nil hvalid hbase64
  intro k hk
  simp only [archivePlaceholders, archiveNames, List.map_cons, List.map_nil,
    List.cons_append, List.nil_append, List.mem_cons, List.not_mem_nil,
    or_false] at hk
  rcases hk with rfl | rfl | rfl | rfl
  · exact hbase64
  · exact hbase64
  · exact hescaped
  · exact hescaped

/-- A template with a placeholder is not blank. -/
theorem body_ne_blank {body k : GoString} (hk : k ∈ archivePlaceholders)
    (hmem : contains body k = true) : body.trimSpace ≠ [] := by
  have hbrace : ∀ k ∈ archivePlaceholders, 0x7B ∈ k := by decide
  have hinside : k <:+: body := by
    simpa only [contains, decide_eq_true_eq] using hmem
  have hin : 0x7B ∈ body := List.IsInfix.subset hinside (hbrace k hk)
  exact trimSpace_ne_nil hin (by decide) (by decide)

/-- The format that is found, where PEM is not configured. -/
theorem taskFormat_eq_iff
    (hformat : codec.lib.toLower task.certificateFormat.trimSpace ≠
      certificateFormatPEM) :
    taskFormat codec task = certificateFormatPKCS12 ↔
      codec.lib.toLower task.certificateFormat.trimSpace =
          certificateFormatPKCS12 ∨
        ∃ name ∈ archiveNames,
          contains task.body.string (placeholder name) = true := by
  have hrequires : requiresPKCS12 task.body.string = true ↔
      ∃ name ∈ archiveNames,
        contains task.body.string (placeholder name) = true := by
    simp only [archiveNames, List.mem_cons, List.not_mem_nil, or_false,
      exists_eq_or_imp, exists_eq_left]
    exact Bool.or_eq_true_iff
  have hdistinct : certificateFormatPEM ≠ certificateFormatPKCS12 := by decide
  rw [← hrequires]
  unfold taskFormat resolveCertificateFormat
  show (if _ then _ else if _ then _ else if _ then _ else _) = _ ↔ _
  rw [if_neg hformat]
  by_cases hpkcs12 : codec.lib.toLower task.certificateFormat.trimSpace =
      certificateFormatPKCS12
  · rw [if_pos hpkcs12]
    exact ⟨fun _ => .inl hpkcs12, fun _ => rfl⟩
  · rw [if_neg hpkcs12]
    by_cases hbody : requiresPKCS12 task.body.string = true
    · rw [if_pos hbody]
      exact ⟨fun _ => .inr hbody, fun _ => rfl⟩
    · rw [if_neg hbody]
      constructor
      · intro heq
        exact absurd heq hdistinct
      · intro hcase
        cases hcase with
        | inl h => exact absurd h hpkcs12
        | inr h => exact absurd h hbody

/-- **A template that asks for an archive** gets one if PKCS#12 is configured or
it asks in the first form; a template that only asks in the second form gets the
empty text. -/
theorem archive_substituted_iff (hquotes : Quotes codec)
    (hencode : ∀ m archive, codec.encode m = .ok archive → archive ≠ [])
    (hasks : AsksForArchive codec.lib task.certificateFormat
      task.body.string) :
    Served codec task ↔
      codec.lib.toLower task.certificateFormat.trimSpace =
          certificateFormatPKCS12 ∨
        ∃ name ∈ archiveNames,
          contains task.body.string (placeholder name) = true := by
  rw [← taskFormat_eq_iff hasks.format]
  constructor
  · intro hserved
    exact hserved.format
  · intro hformat
    exact {
      format := hformat
      filled := by
        intro hinclude o s t out hrun
        obtain ⟨k, hk, hmem⟩ := hasks.placeholder
        obtain ⟨m, hload, hrender⟩ := renderBody_ok hinclude hrun
        obtain ⟨archive, hdelivers, hout⟩ :=
          renderMaterial_eq (body_ne_blank hk hmem) hrender
        have hencoded := hdelivers.encoded hformat
        have hne := hencode m archive hencoded
        exact ⟨m, archive, hload, hencoded, hne, hout,
          value_archive_ne_nil hquotes m _ hne⟩ }

end Archive

/-- A document that asks for the archive in the first form. -/
def askingBody : GoString := "\x7b\x7bpkcs12\x7d\x7d"

theorem archive_substituted_iff_asking :
    Served sampleCodec (sampleTask askingBody "") ↔
      sampleCodec.lib.toLower (GoString.trimSpace (lit "")) =
          certificateFormatPKCS12 ∨
        ∃ name ∈ archiveNames,
          contains askingBody (placeholder name) = true := by
  have hquotes : Quotes sampleCodec := rfl
  have hencode : ∀ m archive, sampleCodec.encode m = .ok archive →
      archive ≠ [] := by
    intro m archive heq
    rw [← Except.ok.inj heq]
    decide
  have hasks : AsksForArchive sampleCodec.lib "" askingBody := by
    decide +kernel
  exact @archive_substituted_iff sampleCodec (sampleTask askingBody "") hquotes
    hencode hasks

/-- A document that only asks in the second form. -/
def escapingBody : GoString := "\x7b\"p12\": \"\x7b\x7bpkcs12_json\x7d\x7d\"\x7d"

/-- The document is sent without an archive. -/
theorem archive_is_missing :
    AsksForArchive sampleCodec.lib "" escapingBody ∧
      resolveCertificateFormat sampleCodec.lib "" escapingBody =
        certificateFormatPEM ∧
      (renderBody sampleCodec (sampleTask escapingBody "") .quiet
        ⟨sampleWorld, 0⟩).1 = .ok (lit "\x7b\"p12\": \"\"\x7d") ∧
      ¬Served sampleCodec (sampleTask escapingBody "") := by
  have hformat : taskFormat sampleCodec (sampleTask escapingBody "") ≠
      certificateFormatPKCS12 := by
    decide +kernel
  constructor
  · decide +kernel
  constructor
  · decide +kernel
  constructor
  · decide +kernel
  · intro hserved
    exact hformat hserved.format

end Hdns.Ports.Templates

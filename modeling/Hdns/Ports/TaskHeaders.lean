import Hdns.Ports.Templates
import Hdns.Verified.MapOrder
import Hdns.Verified.MimeHeader

/-!
# The header of a task's request

`executeTask` ranges over the map that the stored headers are decoded to and sets
a field of the request for every entry.  Names that differ in the case of their
letters are one field, and the entry that is visited last wins.  The form of the
web page rejects two spellings of a name; `EncryptHeaders` does not.

## Main results

* `buildRequest_congr` — where no two spellings disagree, the request is the
  same for every order.
* `same_iff_of_plain` — and for a task without a body only there.
* `headers_determined_iff` — which stored headers determine the header.
-/

namespace Hdns.Ports.TaskHeaders

open Hdns.Verified
open Hdns.Verified.GoString
open Hdns.Verified.Overwrite (carriedOut)
open Hdns.Verified.MapOrder
open Hdns.Verified.MimeHeader
open Hdns.Ports.Schema
open Hdns.Ports.TaskEdits
open Hdns.Ports.CertificateDelivery (Codec renderBody)

/-! ## Decoding into a map of strings -/

/-- What a member puts into a map of strings: null is the empty text. -/
def memberText : Verified.Json.Value GoString → Option GoString
  | .string s => some s
  | .null => some []
  | _ => none

/-- The assignments `json.Unmarshal` makes to a `map[string]string`. -/
def assignments (s : GoString) : Option (List (GoString × GoString)) :=
  match Verified.Json.decode s with
  | some .null => some []
  | some (.object members) =>
      members.mapM fun m => (memberText m.2).map fun v => (m.1, v)
  | _ => none

/-- `json.Unmarshal` into an empty `map[string]string`. -/
def unmarshalHeaders (s : GoString) : Option Headers :=
  (assignments s).map fun ws => carriedOut ws Headers.empty

/-- The library reads JSON as `encoding/json` does; its errors are of no
interest here. -/
def Unmarshals (lib : Library) : Prop :=
  ∀ s, (lib.unmarshal s).toOption = unmarshalHeaders s

/-! ## The request -/

/-- `http.Request`, as far as `executeTask` fills it in. -/
structure Request where
  method : GoString
  url : GoString
  header : Header
  body : GoString

/-- What `executeTask` uses of packages `net/url` and `net/http` before it sends
the request. -/
structure Web where
  /-- `url.Parse`: the scheme of a URL. -/
  parse : GoString → Except GoError GoString
  /-- `http.NewRequestWithContext` for a method and a URL. -/
  newRequest : GoString → GoString → Except GoError Unit

/-- The checks on the URL of a task. -/
def taskEndpoint (web : Web) (url : GoString) : Except GoError GoString :=
  let endpoint := url.trimSpace
  if endpoint = [] then .error (.newError "task url is empty")
  else
    match web.parse endpoint with
    | .error err => .error (.because "invalid task url" err)
    | .ok scheme =>
        if scheme ≠ "http" ∧ scheme ≠ "https" then
          .error (.newError "task url must use http or https")
        else .ok endpoint

/-- The method of a task. -/
def taskMethod (lib : Library) (task : Task) : GoString :=
  let method := lib.toUpper task.method.trimSpace
  if method = [] then "POST" else method

/-- The loop over the decoded headers. -/
def setHeaders (entries : List (GoString × GoString)) : Header :=
  entries.foldl (fun header e => header.set e.1 e.2) Header.empty

/-- The header of a request; a body without a type is JSON. -/
def requestHeader (entries : List (GoString × GoString)) (body : GoString) :
    Header :=
  let header := setHeaders entries
  if header.get "Content-Type" = [] ∧ body ≠ [] then
    header.set "Content-Type" "application/json"
  else header

/-- A request without a body has no other fields than the stored ones. -/
theorem requestHeader_nil (entries : List (GoString × GoString)) :
    requestHeader entries [] = setHeaders entries := by
  simp [requestHeader]

section Execution

variable (codec : Codec) (web : Web) (env : Env)
  (order : Order GoString GoString) (task : Task)

/-- `executeTask` up to `client.Do`; its loop visits the headers in the given
order. -/
def buildRequest : Handler Request := do
  let endpoint ← Prog.ofExcept (taskEndpoint web task.url)
  let method := taskMethod codec.lib task
  let body ← (renderBody codec task).mapError .wrap
  Prog.ofExcept ((web.newRequest method endpoint).mapError
    (.because "failed to build task request"))
  let headers ← Prog.ofExcept
    ((decodeHeaders env codec.lib task.headers).mapError .wrap)
  pure ⟨method, endpoint, requestHeader (order.entries headers) body, body⟩

/-- The header of the request. -/
def headerOf (o : Oracle Call) (s : Sys World) : Except GoError Header :=
  (buildRequest codec web env order task o s).1.map Request.header

end Execution

/-! ## Orders of the loop -/

/-- No two spellings of a header name have different values. -/
def Unambiguous (headers : Headers) : Prop :=
  ∀ k k' v v', headers k = some v → headers k' = some v' →
    IsToken k → EqualFold k k' → v = v'

theorem agree_iff_unambiguous {headers : Headers} :
    Agree canonicalMIMEHeaderKey headers ↔ Unambiguous headers := by
  constructor
  · intro h k k' v v' hk hk' htoken hfold
    exact h k k' v v' hk hk'
      (canonicalMIMEHeaderKey_eq_iff.mpr (.inr ⟨htoken, hfold⟩))
  · intro h k k' v v' hk hk' hname
    cases canonicalMIMEHeaderKey_eq_iff.mp hname with
    | inl heq =>
        rw [heq, hk'] at hk
        exact (Option.some.inj hk).symm
    | inr hspelling => exact h k k' v v' hk hk' hspelling.1 hspelling.2

/-- The same of the entries in a listing. -/
theorem unambiguous_iff {headers : Headers} {es : List (GoString × GoString)}
    (hes : Lists headers es) :
    Unambiguous headers ↔ ∀ e ∈ es, ∀ e' ∈ es,
      IsToken e.1 → EqualFold e.1 e'.1 → e.2 = e'.2 := by
  constructor
  · rintro h ⟨k, v⟩ he ⟨k', v'⟩ he'
    exact h k k' v v' ((hes.mem_iff k v).mp he) ((hes.mem_iff k' v').mp he')
  · intro h k k' v v' hk hk'
    exact h _ ((hes.mem_iff k v).mpr hk) _ ((hes.mem_iff k' v').mpr hk')

theorem setHeaders_eq (es : List (GoString × GoString)) :
    setHeaders es = carriedOut
      (writes canonicalMIMEHeaderKey (fun v => [v]) es) Header.empty := by
  rw [setHeaders, carriedOut, writes, List.foldl_map]
  rfl

theorem requestHeader_congr {headers : Headers}
    (hagree : Agree canonicalMIMEHeaderKey headers)
    {es es' : List (GoString × GoString)} (h : Lists headers es)
    (h' : Lists headers es') (body : GoString) :
    requestHeader es body = requestHeader es' body := by
  have hset : setHeaders es = setHeaders es' := by
    rw [setHeaders_eq, setHeaders_eq]
    exact writes_congr hagree h h' Header.empty
  rw [requestHeader, requestHeader, hset]

section Runs

variable {codec : Codec} {web : Web} {env : Env} {task : Task}

/-- Decoded headers can be listed. -/
theorem decodeHeaders_listed (hjson : Unmarshals codec.lib)
    {stored : NullString} {headers : Headers}
    (h : decodeHeaders env codec.lib stored = .ok headers) :
    ∃ es, Lists headers es := by
  unfold decodeHeaders at h
  by_cases hempty : stored.string = []
  · rw [if_pos hempty] at h
    rw [← Except.ok.inj h]
    exact exists_lists []
  by_cases hkey : env.encryptionKey.length ≠ 32
  · rw [if_neg hempty, if_pos hkey] at h
    cases h
  rw [if_neg hempty, if_neg hkey] at h
  cases hplain : env.decrypt env.encryptionKey stored.string with
  | error err =>
      rw [hplain] at h
      cases h
  | ok plain =>
      rw [hplain] at h
      have hparsed := hjson plain
      rw [Prog.mapError_eq_ok.mp h] at hparsed
      obtain ⟨ws, -, rfl⟩ := Option.map_eq_some_iff.mp hparsed.symm
      exact exists_lists ws

/-- **The request is the same for every order** if no two spellings of a name
disagree. -/
theorem buildRequest_congr (hjson : Unmarshals codec.lib)
    (h : ∀ headers, decodeHeaders env codec.lib task.headers = .ok headers →
      Unambiguous headers) (order order' : Order GoString GoString) :
    buildRequest codec web env order task =
      buildRequest codec web env order' task := by
  unfold buildRequest
  refine bind_congr fun endpoint => bind_congr fun body =>
    bind_congr fun _ => ?_
  cases hdecode : decodeHeaders env codec.lib task.headers with
  | error err => rfl
  | ok headers =>
      obtain ⟨es, hes⟩ := decodeHeaders_listed hjson hdecode
      have hheader := requestHeader_congr
        (agree_iff_unambiguous.mpr (h headers hdecode))
        (order.lists hes) (order'.lists hes) body
      funext o s
      show (Except.ok (Request.mk _ _ (requestHeader _ body) body), s) =
        (Except.ok (Request.mk _ _ (requestHeader _ body) body), s)
      rw [hheader]

/-- A task with a usable URL and without a body. -/
structure Plain (codec : Codec) (web : Web) (task : Task) : Prop where
  endpoint : taskEndpoint web task.url = .ok task.url.trimSpace
  accepted : web.newRequest (taskMethod codec.lib task) task.url.trimSpace =
    .ok ()
  withoutCertificate : task.includeCertificate = false
  withoutBody : task.body.string = []

/-- The request of such a task. -/
theorem Plain.buildRequest (h : Plain codec web task) {headers : Headers}
    (hdecode : decodeHeaders env codec.lib task.headers = .ok headers)
    (order : Order GoString GoString) (o : Oracle Call) (s : Sys World) :
    (buildRequest codec web env order task o s).1 = .ok
      ⟨taskMethod codec.lib task, task.url.trimSpace,
        setHeaders (order.entries headers), []⟩ := by
  have hbody : renderBody codec task = pure [] := by
    simp [renderBody, h.withoutCertificate, h.withoutBody]
  rw [TaskHeaders.buildRequest, h.endpoint, hbody]
  show ((do
    Prog.ofExcept ((web.newRequest _ task.url.trimSpace).mapError _)
    let headers ← Prog.ofExcept ((decodeHeaders env _ _).mapError _)
    pure (Request.mk _ _ (requestHeader _ []) [])) o s).1 = _
  rw [h.accepted, hdecode, ← requestHeader_nil]
  rfl

/-- Any entry of the stored headers may decide its field. -/
theorem Plain.exists_order (h : Plain codec web task)
    (hjson : Unmarshals codec.lib) {headers : Headers}
    (hdecode : decodeHeaders env codec.lib task.headers = .ok headers)
    {k v : GoString} (hk : headers k = some v) (o : Oracle Call)
    (s : Sys World) :
    ∃ order header, headerOf codec web env order task o s = .ok header ∧
      header (canonicalMIMEHeaderKey k) = some [v] := by
  obtain ⟨es, hes⟩ := decodeHeaders_listed hjson hdecode
  obtain ⟨es', hes'⟩ := hes.exists_last hk
  obtain ⟨order, horder⟩ := MapOrder.exists_order hes'
  refine ⟨order, setHeaders (es' ++ [(k, v)]), ?_, ?_⟩
  · rw [headerOf, h.buildRequest hdecode, horder]
    rfl
  · rw [setHeaders_eq, carriedOut_writes_last]

/-- For a task without a body the condition is exact. -/
theorem same_iff_of_plain (hjson : Unmarshals codec.lib)
    (hplain : Plain codec web task) {headers : Headers}
    (hdecode : decodeHeaders env codec.lib task.headers = .ok headers)
    (o : Oracle Call) (s : Sys World) :
    (∀ order order', (buildRequest codec web env order task o s).1 =
      (buildRequest codec web env order' task o s).1) ↔
        Unambiguous headers := by
  obtain ⟨es, hes⟩ := decodeHeaders_listed hjson hdecode
  have hvalue : Function.Injective fun v : GoString => [v] :=
    fun _ _ h => (List.cons.inj h).1
  have hsame_iff : _ ↔ Agree canonicalMIMEHeaderKey headers :=
    same_iff hvalue hes Header.empty
  rw [← agree_iff_unambiguous, ← hsame_iff]
  simp only [hplain.buildRequest hdecode, setHeaders_eq]
  constructor
  · intro hsame es₁ es₂ h₁ h₂
    obtain ⟨order, rfl⟩ := MapOrder.exists_order h₁
    obtain ⟨order', rfl⟩ := MapOrder.exists_order h₂
    exact congrArg Request.header (Except.ok.inj (hsame order order'))
  · intro hsame order order'
    rw [hsame _ _ (order.lists hes) (order'.lists hes)]

end Runs

/-! ## Stored headers -/

/-- The stored headers determine the header of every request that is built with
them, and no field is set to two values. -/
structure Determined (codec : Codec) (web : Web) (env : Env)
    (stored : NullString) : Prop where
  same : ∀ task : Task, task.headers = stored → ∀ o s order order',
    headerOf codec web env order task o s =
      headerOf codec web env order' task o s
  distinct : ∀ headers, decodeHeaders env codec.lib stored = .ok headers →
    ∀ k k' v v', headers k = some v → headers k' = some v' →
      canonicalMIMEHeaderKey k = canonicalMIMEHeaderKey k' → v = v'

/-! ## Runs on concrete inputs -/

/-- A library whose JSON is that of `encoding/json`. -/
def sampleLibrary : Library where
  toUpper := id
  toLower := foldCase
  unmarshal := fun s =>
    match unmarshalHeaders s with
    | some headers => .ok headers
    | none => .error (.external "json: cannot unmarshal")

theorem unmarshals_sampleLibrary : Unmarshals sampleLibrary := by
  intro s
  show Except.toOption (match unmarshalHeaders s with
    | some headers => .ok headers
    | none => .error _) = _
  cases unmarshalHeaders s with
  | none => rfl
  | some headers => rfl

/-- A codec with this library. -/
def sampleCodec : Codec :=
  { Templates.sampleCodec with lib := sampleLibrary }

/-- A deployment whose cipher marks what it has encrypted. -/
def sampleEnv : Env :=
  { Env.sample with
    encrypt := fun _ text => .ok (0x2A :: text)
    decrypt := fun _ text => .ok text.tail }

theorem lawfulCipher_sampleEnv : LawfulCipher sampleEnv where
  undoes := by
    intro text stored h
    rw [← Except.ok.inj h]
    rfl
  nonempty := fun _ h => nomatch h

/-- Web servers that answer every request. -/
def sampleWeb : Web where
  parse := fun url =>
    if url.hasPrefix "https:" then .ok "https"
    else .error (.external "net/url: invalid URL")
  newRequest := fun _ _ => .ok ()

/-- A task with these headers and without a body. -/
def sampleTask (headersJSON : GoString) : Task :=
  ⟨1, 1, "hook", triggerIP, "POST", "https://hook.example.org",
    some (0x2A :: headersJSON), none, false, true, none, none, none, "pem"⟩

/-- What the headers of such a task are decoded to. -/
theorem decodeHeaders_sampleTask {headersJSON : GoString}
    {ws : List (GoString × GoString)} (h : assignments headersJSON = some ws) :
    decodeHeaders sampleEnv sampleCodec.lib (sampleTask headersJSON).headers =
      .ok (carriedOut ws Headers.empty) := by
  have hparsed : sampleLibrary.unmarshal headersJSON =
      .ok (carriedOut ws Headers.empty) := by
    show (match unmarshalHeaders headersJSON with
      | some headers => Except.ok headers
      | none => .error _) = _
    rw [unmarshalHeaders, h]
    rfl
  show (sampleLibrary.unmarshal headersJSON).mapError _ = _
  rw [hparsed]
  rfl

theorem plain_sampleTask (headersJSON : GoString) :
    Plain sampleCodec sampleWeb (sampleTask headersJSON) where
  endpoint := by
    show taskEndpoint sampleWeb "https://hook.example.org" =
      .ok (lit "https://hook.example.org").trimSpace
    decide +kernel
  accepted := rfl
  withoutCertificate := rfl
  withoutBody := rfl

/-! ## Which headers determine the request -/

/-- **Which accepted headers determine the request**: those in which no two
spellings of a name have different values. -/
theorem headers_determined_iff {codec : Codec} (web : Web) {env : Env}
    (hjson : Unmarshals codec.lib) (hcipher : LawfulCipher env)
    {headersJSON : GoString} {stored : NullString}
    (haccepted : encryptHeaders env codec.lib headersJSON = .ok stored) :
    Determined codec web env stored ↔
      ∀ headers, headersOf codec.lib headersJSON = .ok headers →
        Unambiguous headers := by
  rw [← decodeHeaders_encryptHeaders hcipher haccepted]
  constructor
  · intro hdetermined headers hdecode
    exact agree_iff_unambiguous.mp (hdetermined.distinct headers hdecode)
  · intro h
    constructor
    · rintro task rfl o s order order'
      rw [headerOf, headerOf, buildRequest_congr hjson h order order']
    · intro headers hdecode
      exact agree_iff_unambiguous.mpr (h headers hdecode)

/-- Two names. -/
def distinctHeaders : GoString := "\x7b\"X-A\":\"1\",\"x-b\":\"2\"\x7d"

theorem headers_determined_iff_distinct :
    Determined sampleCodec sampleWeb sampleEnv
      (sampleTask distinctHeaders).headers := by
  have hassigned : assignments distinctHeaders =
      some [(lit "X-A", lit "1"), (lit "x-b", lit "2")] := by
    decide +kernel
  have haccepted : encryptHeaders sampleEnv sampleCodec.lib distinctHeaders =
      .ok (sampleTask distinctHeaders).headers := by
    decide +kernel
  refine (headers_determined_iff sampleWeb unmarshals_sampleLibrary
    lawfulCipher_sampleEnv haccepted).mpr ?_
  intro headers hheaders
  rw [← decodeHeaders_encryptHeaders lawfulCipher_sampleEnv haccepted,
    decodeHeaders_sampleTask hassigned] at hheaders
  have hlists : Lists headers [(lit "X-A", lit "1"), (lit "x-b", lit "2")] := by
    rw [← Except.ok.inj hheaders]
    exact lists_carriedOut (by decide +kernel)
  rw [unambiguous_iff hlists]
  decide +kernel

/-- Two spellings of one name. -/
def clashingHeaders : GoString := "\x7b\"x-a\":\"1\",\"X-A\":\"2\"\x7d"

/-- Accepted headers that spell a name in two ways: the field of the request is
that of the entry the loop happens to visit last. -/
theorem spellings_clash :
    encryptHeaders sampleEnv sampleCodec.lib clashingHeaders =
        .ok (sampleTask clashingHeaders).headers ∧
      (∀ v ∈ [lit "1", lit "2"], ∃ order header,
        headerOf sampleCodec sampleWeb sampleEnv order
          (sampleTask clashingHeaders) .quiet ⟨World.init fun _ _ => none, 0⟩ =
            .ok header ∧ header "X-A" = some [v]) ∧
      ¬Determined sampleCodec sampleWeb sampleEnv
        (sampleTask clashingHeaders).headers := by
  have haccepted : encryptHeaders sampleEnv sampleCodec.lib clashingHeaders =
      .ok (sampleTask clashingHeaders).headers := by
    decide +kernel
  have hassigned : assignments clashingHeaders =
      some [(lit "x-a", lit "1"), (lit "X-A", lit "2")] := by
    decide +kernel
  have hdecode := decodeHeaders_sampleTask hassigned
  have hlists : Lists (carriedOut
      [(lit "x-a", lit "1"), (lit "X-A", lit "2")] Headers.empty)
        [(lit "x-a", lit "1"), (lit "X-A", lit "2")] :=
    lists_carriedOut (by decide +kernel)
  have hlast := fun k v => (plain_sampleTask clashingHeaders).exists_order
    unmarshals_sampleLibrary hdecode (k := k) (v := v)
  have hfirst := (hlists.mem_iff "x-a" "1").mp (by decide +kernel)
  have hsecond := (hlists.mem_iff "X-A" "2").mp (by decide +kernel)
  have hname : canonicalMIMEHeaderKey "x-a" = "X-A" := by
    decide +kernel
  have hname' : canonicalMIMEHeaderKey "X-A" = "X-A" := by
    decide +kernel
  refine ⟨haccepted, ?_, ?_⟩
  · have hone := hlast _ _ hfirst .quiet ⟨World.init fun _ _ => none, 0⟩
    have htwo := hlast _ _ hsecond .quiet ⟨World.init fun _ _ => none, 0⟩
    rw [hname] at hone
    rw [hname'] at htwo
    simp only [List.forall_mem_cons]
    exact ⟨hone, htwo, nofun⟩
  · intro hdetermined
    have heq := hdetermined.distinct _ hdecode _ _ _ _ hfirst hsecond
      (hname.trans hname'.symm)
    exact absurd heq (by decide +kernel)

end Hdns.Ports.TaskHeaders

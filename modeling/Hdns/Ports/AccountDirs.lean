import Hdns.Verified.RelativePath
import Hdns.Ports.CertificateFiles

/-!
# The directories of the ACME accounts

The key and the registration of an ACME account are files of a directory that
is named after the e-mail address of the account, below one directory for each
environment.  The name is the address with some of its characters replaced, so
two addresses can come to one name, and an address of dots alone is no name but
a step in the path.

## Main results

* `loadOrCreateUser_files`, `saveACMERegistration_files` — which files change.
* `accounts_kept_apart_iff` — when two accounts have directories of their own.
-/

namespace Hdns.Ports.AccountDirs

open Hdns.Verified
open Hdns.Verified.GoString
open Hdns.Ports.Schema
open Hdns.Ports.Certificates
open Hdns.Ports.CertificateFiles

/-! ## The directory of an account -/

/-- The arguments of `strings.NewReplacer`. -/
def replacements : List (GoString × GoString) :=
  [(lit "@", lit "_at_"), (lit ":", lit "_"), (lit "/", lit "_"),
    (lit "\\", lit "_"), (lit " ", lit "_")]

/-- The variable `safe` of `dir`. -/
def safeName (email : GoString) : GoString := email.replacer replacements

/-- The environment of the ACME server. -/
def environment (staging : Bool) : GoString :=
  if staging then "staging" else "production"

/-- `dir`. -/
def dir (env : Env) (email : GoString) (staging : Bool) : GoString :=
  GoPath.join [env.dataPath, "acme", environment staging, safeName email]

def accountKey : GoString := "account.key"
def accountJson : GoString := "account.json"

/-- `keyPath` and `regPath`. -/
def accountFile (env : Env) (email : GoString) (staging : Bool)
    (name : GoString) : GoString :=
  GoPath.join [dir env email staging, name]

/-! ## Loading and storing an account -/

/-- `acme.ExtendedAccount`. -/
structure Registration where
  account : GoString
  location : GoString
  deriving DecidableEq, Repr

/-- `user`. -/
structure User where
  email : GoString
  registration : Option Registration
  key : GoString
  deriving DecidableEq, Repr

/-- What the functions use of `crypto/ecdsa`, `crypto/x509`, `encoding/pem` and
`encoding/json`; a file that is no account of a format is `none`. -/
structure Formats where
  generateKey : Except GoError GoString
  marshalECPrivateKey : GoString → Except GoError GoString
  parseECPrivateKey : GoString → Except GoError GoString
  pemEncode : GoString → GoString → GoString
  marshalAccount : Registration → Except GoError GoString
  unmarshalAccount : GoString → Option Registration
  /-- The members `body` and `uri` of the former format. -/
  unmarshalLegacy : GoString → Option (GoString × GoString)

/-- `os.IsNotExist`. -/
def notExist : GoError := .external "open: no such file or directory"

/-- The registration in the text of `account.json`. -/
def readRegistration (formats : Formats) (regData : GoString) :
    Option Registration :=
  (formats.unmarshalAccount regData).map fun reg =>
    if reg.location.trimSpace = [] then
      match formats.unmarshalLegacy regData with
      | none => reg
      | some (body, uri) => ⟨body, uri.trimSpace⟩
    else reg

/-- The account whose key was read. -/
def loadUser (env : Env) (formats : Formats) (email : GoString)
    (staging : Bool) (keyData : GoString) : Handler User :=
  match env.pemDecode keyData with
  | none => Prog.throw (.newError "failed to decode acme account key")
  | some (block, _) => do
      let key ← Prog.ofExcept ((formats.parseECPrivateKey block).mapError
        (.because "failed to parse acme account key"))
      match ← (readFile (accountFile env email staging accountJson)).attempt with
      | .error _ => pure ⟨email, none, key⟩
      | .ok regData => pure ⟨email, readRegistration formats regData, key⟩

/-- The account that is new. -/
def createUser (env : Env) (formats : Formats) (email : GoString)
    (staging : Bool) : Handler User := do
  let pk ← Prog.ofExcept (formats.generateKey.mapError
    (.because "failed to generate acme account key"))
  let der ← Prog.ofExcept ((formats.marshalECPrivateKey pk).mapError
    (.because "failed to marshal acme account key"))
  (writeFile (accountFile env email staging accountKey)
    (formats.pemEncode "EC PRIVATE KEY" der)).mapError
      (.because "failed to persist acme account key")
  pure ⟨email, none, pk⟩

/-- `loadOrCreateUser`. -/
def loadOrCreateUser (env : Env) (formats : Formats) (email : GoString)
    (staging : Bool) : Handler User := do
  mkdirAll.mapError (.because "failed to create acme account directory")
  match ← (readFile (accountFile env email staging accountKey)).attempt with
  | .ok keyData => loadUser env formats email staging keyData
  | .error err =>
      if err ≠ notExist then
        Prog.throw (.because "failed to read acme account key" err)
      else createUser env formats email staging

/-- `saveACMERegistration`. -/
def saveACMERegistration (env : Env) (formats : Formats) (user : User)
    (staging : Bool) : Handler Unit :=
  match user.registration with
  | none => pure ()
  | some reg => do
      let data ← Prog.ofExcept ((formats.marshalAccount reg).mapError
        (.because "failed to marshal acme registration"))
      (writeFile (accountFile env user.email staging accountJson)
        data).mapError (.because "failed to persist acme registration")

/-! ## The files of an account -/

/-- Only files of these names change in the directory of an account. -/
def OnlyFile (env : Env) (email : GoString) (staging : Bool) (name : GoString)
    (w w' : World) : Prop :=
  ∀ p, w'.files p ≠ w.files p → p = accountFile env email staging name

section Files

variable {env : Env} {formats : Formats} {email : GoString} {staging : Bool}
  {name : GoString} {o : Oracle Call}

theorem OnlyFile.refl (w : World) : OnlyFile env email staging name w w :=
  fun _ h => absurd rfl h

theorem OnlyFile.trans (w₁ w₂ w₃ : World)
    (h : OnlyFile env email staging name w₁ w₂)
    (h' : OnlyFile env email staging name w₂ w₃) :
    OnlyFile env email staging name w₁ w₃ := by
  intro p hp
  by_cases hsame : w₃.files p = w₂.files p
  · exact h p fun heq => hp (hsame.trans heq)
  · exact h' p hsame

theorem writeFile_onlyFile (content : GoString) :
    Prog.Keeps o (OnlyFile env email staging name)
      (writeFile (accountFile env email staging name) content) := by
  have hset : ∀ (content : GoString) (w : World),
      OnlyFile env email staging name w
        (setFile (accountFile env email staging name) content w) := by
    intro content w p hp
    by_contra hne
    exact hp (if_neg hne)
  have hopen : Prog.Keeps o (OnlyFile env email staging name)
      (openFile (accountFile env email staging name)) :=
    .call OnlyFile.refl (hset [])
  have hwrite : Prog.Keeps o (OnlyFile env email staging name)
      (writeContent (accountFile env email staging name) content) :=
    .call OnlyFile.refl (hset content)
  exact .bind OnlyFile.trans hopen fun _ => hwrite

/-- Loading an account changes at most its key file. -/
theorem loadOrCreateUser_files :
    Prog.Keeps o (OnlyFile env email staging accountKey)
      (loadOrCreateUser env formats email staging) := by
  have hrefl := @OnlyFile.refl env email staging accountKey
  have htrans := @OnlyFile.trans env email staging accountKey
  have hread : ∀ path, Prog.Keeps o (OnlyFile env email staging accountKey)
      (readFile path).attempt := fun path => .attempt (.query hrefl)
  have hload : ∀ keyData, Prog.Keeps o (OnlyFile env email staging accountKey)
      (loadUser env formats email staging keyData) := by
    intro keyData
    unfold loadUser
    cases env.pemDecode keyData with
    | none => exact .throw hrefl _
    | some block =>
        refine .bind htrans (.ofExcept hrefl _) fun key =>
          .bind htrans (hread _) fun regData => ?_
        cases regData with
        | error err => exact .pure hrefl _
        | ok regData => exact .pure hrefl _
  have hcreate : Prog.Keeps o (OnlyFile env email staging accountKey)
      (createUser env formats email staging) :=
    .bind htrans (.ofExcept hrefl _) fun pk =>
      .bind htrans (.ofExcept hrefl _) fun der =>
        .bind htrans (.mapError (writeFile_onlyFile _) _) fun _ =>
          .pure hrefl _
  refine .bind htrans (.mapError (.call hrefl fun w => hrefl w) _) fun _ =>
    .bind htrans (hread _) fun keyData => ?_
  cases keyData with
  | ok keyData => exact hload keyData
  | error err => exact .ite (fun _ => .throw hrefl _) fun _ => hcreate

/-- Storing a registration changes at most the registration file. -/
theorem saveACMERegistration_files (user : User) :
    Prog.Keeps o (OnlyFile env user.email staging accountJson)
      (saveACMERegistration env formats user staging) := by
  unfold saveACMERegistration
  cases user.registration with
  | none => exact .pure OnlyFile.refl _
  | some reg =>
      exact .bind OnlyFile.trans (.ofExcept OnlyFile.refl _) fun data =>
        .mapError (writeFile_onlyFile data) _

end Files

/-! ## What an address comes to -/

/-- What one byte of an address comes to: `@` is written out, and a colon, a
slash, a backslash and a space are an underscore. -/
def writtenByte (b : UInt8) : GoString :=
  if b = 0x40 then lit "_at_"
  else if b ∈ lit ":/\\ " then lit "_"
  else [b]

/-- What an address comes to. -/
def written (email : GoString) : GoString := email.flatMap writtenByte

/-- The pair for a byte. -/
theorem find_replacements (b : UInt8) :
    (replacements.find? fun p => p.1 == [b]) =
      if writtenByte b = [b] then none else some ([b], writtenByte b) := by
  revert b
  apply forall_byte
  decide +kernel

/-- The replacer works byte by byte. -/
theorem safeName_eq (email : GoString) : safeName email = written email := by
  unfold safeName GoString.replacer
  induction email with
  | nil => rfl
  | cons b bs ih =>
      have hsingle : ∀ c : UInt8, List.isPrefixOf [c] (b :: bs) =
          ([c] == [b]) := by
        intro c
        simp [List.isPrefixOf]
      have hfind : (replacements.find? fun p => p.1.isPrefixOf (b :: bs)) =
          replacements.find? fun p => p.1 == [b] := by
        show List.find? _ [([0x40], _), ([0x3A], _), ([0x2F], _),
          ([0x5C], _), ([0x20], _)] = List.find? _ [([0x40], _), ([0x3A], _),
            ([0x2F], _), ([0x5C], _), ([0x20], _)]
        simp only [List.find?_cons, hsingle, List.find?_nil]
      rw [written, List.flatMap_cons, ← written, ← ih, GoString.replacerFrom,
        hfind, find_replacements]
      by_cases hb : writtenByte b = [b]
      · rw [if_pos hb, hb]
        rfl
      · rw [if_neg hb]
        rfl

/-- What a byte comes to is not empty, has no slash, and is a dot only if the
byte is one. -/
theorem writtenByte_spec (b : UInt8) :
    writtenByte b ≠ [] ∧ GoPath.slash ∉ writtenByte b ∧
      ((writtenByte b).head? = some 0x2E → b = 0x2E ∧ writtenByte b = [b]) := by
  by_cases hat : b = 0x40
  · rw [writtenByte, if_pos hat]
    exact ⟨by decide, by decide, fun h => absurd h (by decide)⟩
  by_cases hclass : b ∈ lit ":/\\ "
  · rw [writtenByte, if_neg hat, if_pos hclass]
    exact ⟨by decide, by decide, fun h => absurd h (by decide)⟩
  · have hslash : GoPath.slash ≠ b := by
      rintro rfl
      exact hclass (by decide)
    rw [writtenByte, if_neg hat, if_neg hclass]
    simp [hslash]

theorem slash_not_mem_written (email : GoString) :
    GoPath.slash ∉ written email := by
  intro h
  obtain ⟨b, -, hb⟩ := List.mem_flatMap.mp h
  exact (writtenByte_spec b).2.1 hb

/-- Dots come from dots. -/
theorem written_eq_dots (email : GoString) :
    ∀ n, written email = List.replicate n 0x2E →
      email = List.replicate n 0x2E := by
  induction email with
  | nil =>
      intro n h
      simpa [written] using h
  | cons b bs ih =>
      intro n h
      obtain ⟨hne, -, hdot⟩ := writtenByte_spec b
      rw [written, List.flatMap_cons, ← written] at h
      cases n with
      | zero => exact absurd (List.append_eq_nil_iff.mp h).1 hne
      | succ n =>
          have hhead : (writtenByte b).head? = some 0x2E := by
            have := congrArg List.head? h
            rwa [List.head?_append_of_ne_nil _ hne] at this
          obtain ⟨rfl, hb⟩ := hdot hhead
          rw [hb] at h
          rw [List.replicate_succ, ih n (List.cons.inj h).2]

/-- An address that is no step in a path. -/
def NoStep (email : GoString) : Prop :=
  email ≠ lit "." ∧ email ≠ lit ".."

instance (email : GoString) : Decidable (NoStep email) :=
  inferInstanceAs (Decidable (_ ∧ _))

/-- Such an address comes to a file name. -/
theorem written_plain {email : GoString} (hne : email ≠ [])
    (h : NoStep email) : GoPath.Plain (written email) where
  ne_nil := fun hnil => hne (written_eq_dots email 0 hnil)
  ne_dot := fun hdot => h.1 (written_eq_dots email 1 hdot)
  ne_dotDot := fun hdots => h.2 (written_eq_dots email 2 hdots)
  no_slash := slash_not_mem_written email

/-! ## Directories of their own -/

/-- The directory of the accounts of an environment. -/
def environmentDir (env : Env) (staging : Bool) : GoString :=
  GoPath.join [env.dataPath, "acme", environment staging]

section Dirs

variable {env : Env}

theorem dir_eq (email : GoString) (staging : Bool) :
    dir env email staging =
      GoPath.join [environmentDir env staging, written email] := by
  have hparts : ∃ p ∈ [env.dataPath, lit "acme", environment staging],
      p ≠ [] := ⟨lit "acme", by simp, by decide⟩
  rw [← safeName_eq]
  exact GoPath.join_snoc hparts (safeName email)

/-- A joined path with a name in it is clean. -/
private theorem join_clean {parts : List GoString} {n : GoString}
    (hn : n ≠ []) : GoPath.clean (GoPath.join (env.dataPath :: n :: parts)) =
      GoPath.join (env.dataPath :: n :: parts) := by
  by_cases hpath : env.dataPath = []
  · simp [GoPath.join, hpath, hn]
  · exact GoPath.clean_join _ hpath

theorem environmentDir_clean (staging : Bool) :
    GoPath.clean (environmentDir env staging) = environmentDir env staging :=
  join_clean (by decide)

theorem environmentDir_ne_nil (staging : Bool) :
    environmentDir env staging ≠ [] := by
  intro hnil
  have hclean : GoPath.clean (environmentDir env staging) =
      environmentDir env staging := environmentDir_clean staging
  rw [hnil] at hclean
  exact absurd hclean (by decide)

theorem dir_clean (email : GoString) (staging : Bool) :
    GoPath.clean (dir env email staging) = dir env email staging :=
  join_clean (by decide)

/-- The environments have different directories. -/
theorem environmentDir_inj {staging staging' : Bool} :
    environmentDir env staging = environmentDir env staging' ↔
      staging = staging' := by
  have hplain : ∀ s, GoPath.Plain (environment s) := by
    intro s
    cases s with
    | true => exact ⟨by decide, by decide, by decide, by decide⟩
    | false => exact ⟨by decide, by decide, by decide, by decide⟩
  have hacme : GoPath.clean (GoPath.join [env.dataPath, "acme"]) =
      GoPath.join [env.dataPath, "acme"] := join_clean (by decide)
  have hparts : ∃ p ∈ [env.dataPath, lit "acme"], p ≠ [] :=
    ⟨lit "acme", by simp, by decide⟩
  have hjoin : ∀ s, environmentDir env s =
      GoPath.join [GoPath.join [env.dataPath, "acme"], environment s] :=
    fun s => GoPath.join_snoc hparts (environment s)
  rw [hjoin, hjoin, GoPath.join_inj hacme hacme (hplain _) (hplain _),
    and_iff_right rfl]
  cases staging <;> cases staging' <;> decide

/-- The account has a directory of its own below that of its environment, if
and only if its address is no step in a path. -/
theorem dir_below_iff {email : GoString} (hne : email ≠ []) (staging : Bool) :
    GoPath.Below (environmentDir env staging) (dir env email staging) ↔
      NoStep email := by
  constructor
  · intro h
    rw [dir_eq, GoPath.below_join_iff (environmentDir_ne_nil staging)] at h
    obtain ⟨ns, back, hns, hnames, -⟩ := h
    -- the reading of a step has no names
    have hstep : ∀ s, s = lit "." ∨ s = lit ".." →
        (GoPath.reading (written s)).names = [] := by
      rintro s (rfl | rfl) <;> decide
    refine ⟨fun hdot => ?_, fun hdots => ?_⟩
    · rw [hstep _ (.inl hdot)] at hnames
      exact hns (List.append_eq_nil_iff.mp hnames.symm).1
    · rw [hstep _ (.inr hdots)] at hnames
      exact hns (List.append_eq_nil_iff.mp hnames.symm).1
  · intro h
    have hplain := written_plain hne h
    exact ⟨[written email], by simp, by simpa using hplain,
      dir_eq email staging⟩

end Dirs

/-- **Two accounts kept apart**: each has a directory of its own below that of
its environment, and no file of one is a file of the other. -/
structure KeptApart (env : Env) (e₁ : GoString) (s₁ : Bool) (e₂ : GoString)
    (s₂ : Bool) : Prop where
  dirs : dir env e₁ s₁ ≠ dir env e₂ s₂
  first : GoPath.Below (environmentDir env s₁) (dir env e₁ s₁)
  second : GoPath.Below (environmentDir env s₂) (dir env e₂ s₂)
  files : ∀ n ∈ [accountKey, accountJson], ∀ n' ∈ [accountKey, accountJson],
    accountFile env e₁ s₁ n ≠ accountFile env e₂ s₂ n'

/-- Files of different directories are different. -/
theorem accountFile_ne {env : Env} {e₁ e₂ : GoString} {s₁ s₂ : Bool}
    (h : dir env e₁ s₁ ≠ dir env e₂ s₂) :
    ∀ n ∈ [accountKey, accountJson], ∀ n' ∈ [accountKey, accountJson],
      accountFile env e₁ s₁ n ≠ accountFile env e₂ s₂ n' := by
  have hplain : ∀ n ∈ [accountKey, accountJson], GoPath.Plain n := by
    have hall : ∀ n ∈ [accountKey, accountJson], n ≠ [] ∧ n ≠ GoPath.dot ∧
        n ≠ GoPath.dotDot ∧ GoPath.slash ∉ n := by decide
    exact fun n hn => ⟨(hall n hn).1, (hall n hn).2.1, (hall n hn).2.2.1,
      (hall n hn).2.2.2⟩
  intro n hn n' hn' heq
  exact h ((GoPath.join_inj (dir_clean e₁ s₁) (dir_clean e₂ s₂) (hplain n hn)
    (hplain n' hn')).mp heq).1

/-- **When accounts are kept apart.**  For every two addresses that are not
blank and any environments: neither address is a step in a path, and in one
environment they come to different names. -/
theorem accounts_kept_apart_iff (env : Env) (e₁ e₂ : GoString) (s₁ s₂ : Bool)
    (h₁ : e₁.trimSpace ≠ []) (h₂ : e₂.trimSpace ≠ []) :
    KeptApart env e₁ s₁ e₂ s₂ ↔
      NoStep e₁ ∧ NoStep e₂ ∧ (s₁ = s₂ → written e₁ ≠ written e₂) := by
  have hne₁ : e₁ ≠ [] := by
    rintro rfl
    exact h₁ rfl
  have hne₂ : e₂ ≠ [] := by
    rintro rfl
    exact h₂ rfl
  constructor
  · intro h
    refine ⟨(dir_below_iff hne₁ s₁).mp h.first,
      (dir_below_iff hne₂ s₂).mp h.second, ?_⟩
    rintro rfl hwritten
    exact h.dirs (by rw [dir_eq, dir_eq, hwritten])
  · rintro ⟨hstep₁, hstep₂, hnames⟩
    have hdirs : dir env e₁ s₁ ≠ dir env e₂ s₂ := by
      intro heq
      rw [dir_eq, dir_eq, GoPath.join_inj (environmentDir_clean s₁)
        (environmentDir_clean s₂) (written_plain hne₁ hstep₁)
        (written_plain hne₂ hstep₂), environmentDir_inj] at heq
      exact hnames heq.1 heq.2
    exact ⟨hdirs, (dir_below_iff hne₁ s₁).mpr hstep₁,
      (dir_below_iff hne₂ s₂).mpr hstep₂, accountFile_ne hdirs⟩

/-- Two mailboxes of one domain, in one environment and in both. -/
theorem accounts_kept_apart_iff_mailboxes :
    KeptApart Env.sample "a@example.org" true "b@example.org" true ∧
      KeptApart Env.sample "a@example.org" true "a@example.org" false :=
  ⟨(accounts_kept_apart_iff Env.sample _ _ true true (by decide)
      (by decide)).mpr ⟨by decide, by decide, fun _ => by decide⟩,
    (accounts_kept_apart_iff Env.sample _ _ true false (by decide)
      (by decide)).mpr ⟨by decide, by decide, nofun⟩⟩

/-- Two addresses share a directory, and two dots lead out of it. -/
theorem accounts_share_directory :
    (dir Env.sample "ops@example.org" false =
        dir Env.sample "ops_at_example.org" false ∧
      ¬KeptApart Env.sample "ops@example.org" false "ops_at_example.org"
        false) ∧
    dir Env.sample ".." true = dir Env.sample ".." false ∧
      ¬KeptApart Env.sample ".." true ".." false := by
  have hshared : dir Env.sample "ops@example.org" false =
      dir Env.sample "ops_at_example.org" false := by decide +kernel
  have hdots : dir Env.sample ".." true = dir Env.sample ".." false := by
    decide +kernel
  exact ⟨⟨hshared, fun h => h.dirs hshared⟩, hdots, fun h => h.dirs hdots⟩

end Hdns.Ports.AccountDirs

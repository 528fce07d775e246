import Hdns.Ports.AccountDirs
import Hdns.Verified.Machine

/-!
# Clients of the ACME server

`newACMEClient` loads the account of an e-mail address, or creates its key, and
registers the key with the ACME server unless the account file names the
account.  Issuances run side by side and take no lock for it.

This file has the function twice: as it is written, and as the statements it
carries out, which `AccountRuns` interleaves.

## Main results

* `Opening.runFor_eq_newACMEClient` — the statements, one after the other, are
  the function.
-/

namespace Hdns.Ports.AccountClients

open Hdns.Verified
open Hdns.Verified.GoString
open Hdns.Ports.Schema
open Hdns.Ports.Certificates
open Hdns.Ports.CertificateFiles
open Hdns.Ports.AccountDirs

/-! ## The ACME server -/

/-- What the client sees of an ACME server with states `σ`. -/
structure Authority (σ : Type) where
  /-- A `newAccount` request signed with a key. -/
  newAccount : GoString → σ → Except GoError Registration × σ
  /-- The same with `onlyReturnExisting`. -/
  existingAccount : GoString → σ → Except GoError Registration
  /-- The URL of the account of a key. -/
  accountURL : σ → GoString → Option GoString

/-- A server keeps one account for a key, and answers with its URL. -/
structure Authority.Lawful {σ : Type} (ca : Authority σ) : Prop where
  registered : ∀ key s reg, (ca.newAccount key s).1 = .ok reg →
    reg.location.trimSpace ≠ [] ∧
      ca.accountURL (ca.newAccount key s).2 key = some reg.location
  kept : ∀ key s k url, ca.accountURL s k = some url →
    ca.accountURL (ca.newAccount key s).2 k = some url
  existing : ∀ key s reg, ca.existingAccount key s = .ok reg →
    ca.accountURL s key = some reg.location

/-- The files of the server and the state of the ACME server. -/
structure Desk (σ : Type) where
  world : World
  ca : σ

/-- The calls that reach outside. -/
inductive AcmeCall where
  | file (c : Call)
  | newClient | register | resolveAccountByKey
  deriving DecidableEq, Repr

abbrev Request (σ α : Type) := Prog AcmeCall (Desk σ) GoError α

section Programs

variable {σ α β : Type}

/-- A function that uses the disk alone. -/
def onDisk (p : Handler α) : Request σ α :=
  p.within .file Desk.world fun w d => { d with world := w }

theorem onDisk_bind (p : Handler α) (f : α → Handler β) :
    (onDisk (p >>= f) : Request σ β) = onDisk p >>= fun a => onDisk (f a) := by
  funext o s
  rw [Prog.bind_apply]
  unfold onDisk Prog.within
  rw [Prog.bind_apply]
  rcases p (fun n c => o n (.file c)) ⟨s.state.world, s.clock⟩ with ⟨e | a, t⟩
  · rfl
  · rfl

@[simp] theorem onDisk_pure (a : α) :
    (onDisk (pure a) : Request σ α) = pure a := rfl

@[simp] theorem onDisk_throw (e : GoError) :
    (onDisk (Prog.throw e : Handler α) : Request σ α) = Prog.throw e := rfl

theorem onDisk_attempt (p : Handler α) :
    (onDisk p.attempt : Request σ (Except GoError α)) = (onDisk p).attempt :=
  rfl

theorem onDisk_mapError (f : GoError → GoError) (p : Handler α) :
    (onDisk (p.mapError f) : Request σ α) = (onDisk p).mapError f := rfl

/-- `lego.NewClient`, which fetches the directory of the server. -/
def newClient : Request σ Unit :=
  .query .newClient (.external "get directory: request failed") fun _ => .ok ()

/-- `Registration.Register`. -/
def register (ca : Authority σ) (key : GoString) : Request σ Registration :=
  .call .register (.external "acme: request failed") fun d =>
    ((ca.newAccount key d.ca).1, { d with ca := (ca.newAccount key d.ca).2 })

/-- `Registration.ResolveAccountByKey`. -/
def resolveAccountByKey (ca : Authority σ) (key : GoString) :
    Request σ Registration :=
  .query .resolveAccountByKey (.external "acme: request failed") fun d =>
    ca.existingAccount key d.ca

/-! ## `newACMEClient` -/

/-- The registration is set, and stored; that it could not be stored is only
logged. -/
def keep (env : Env) (formats : Formats) (staging : Bool) (user : User)
    (reg : Registration) : Request σ User := do
  let user := { user with registration := some reg }
  let _ ← (onDisk (saveACMERegistration env formats user staging)).attempt
  pure user

/-- `Register` and what follows it. -/
def registerAccount (env : Env) (formats : Formats) (ca : Authority σ)
    (staging : Bool) (user : User) (message : GoString) : Request σ User := do
  let reg ← (register ca user.key).mapError (.because message)
  keep env formats staging user reg

/-- The registration of the account that was loaded. -/
def ensureRegistration (env : Env) (formats : Formats) (ca : Authority σ)
    (staging : Bool) (user : User) : Request σ User :=
  match user.registration with
  | none =>
      registerAccount env formats ca staging user
        "failed to register acme account"
  | some old =>
      if old.location.trimSpace = [] then do
        match ← (resolveAccountByKey ca user.key).attempt with
        | .ok reg =>
            if reg.location.trimSpace ≠ [] then
              keep env formats staging user reg
            else
              registerAccount env formats ca staging user
                "failed to recover acme account registration"
        | .error _ =>
            registerAccount env formats ca staging user
              "failed to recover acme account registration"
      else pure user

/-- `newACMEClient`: the account the client signs for. -/
def newACMEClient (env : Env) (formats : Formats) (ca : Authority σ)
    (email : GoString) (staging : Bool) : Request σ User :=
  if email.trimSpace = [] then
    Prog.throw (.newError "acme account email is not configured")
  else do
    let user ← (onDisk (loadOrCreateUser env formats email
      staging)).mapError .wrap
    newClient.mapError (.because "failed to create acme client")
    ensureRegistration env formats ca staging user

end Programs

/-! ## The statements -/

/-- Where a call stands. -/
inductive Opening where
  | idle
  /-- Before `os.MkdirAll`. -/
  | mkdir
  /-- Before the key file is read. -/
  | readKey
  /-- Before the account file is read, with the key. -/
  | readReg (key : GoString)
  /-- Before the key file is opened, with the new key and its text. -/
  | openKey (pk text : GoString)
  /-- Before the text is written. -/
  | writeKey (pk text : GoString)
  /-- Before `lego.NewClient`. -/
  | connect (user : User)
  /-- Before `Register`, with the text of its error. -/
  | register (user : User) (message : GoString)
  /-- Before `ResolveAccountByKey`. -/
  | resolve (user : User)
  /-- Before the account file is opened, with its text. -/
  | openReg (user : User) (text : GoString)
  /-- Before the text is written. -/
  | writeReg (user : User) (text : GoString)
  | returned (r : Except GoError User)
  deriving DecidableEq

section Statements

variable {σ : Type} (env : Env) (formats : Formats) (ca : Authority σ)
  (email : GoString) (staging : Bool)

/-- The key file was read. -/
def keyRead (keyData : GoString) : Opening :=
  match env.pemDecode keyData with
  | none =>
      .returned (.error (.wrap (.newError "failed to decode acme account key")))
  | some (block, _) =>
      match formats.parseECPrivateKey block with
      | .error err => .returned (.error
          (.wrap (.because "failed to parse acme account key" err)))
      | .ok key => .readReg key

/-- There is no key file. -/
def keyMissing : Opening :=
  match formats.generateKey with
  | .error err => .returned (.error
      (.wrap (.because "failed to generate acme account key" err)))
  | .ok pk =>
      match formats.marshalECPrivateKey pk with
      | .error err => .returned (.error
          (.wrap (.because "failed to marshal acme account key" err)))
      | .ok der => .openKey pk (formats.pemEncode "EC PRIVATE KEY" der)

/-- The client was created. -/
def connected (user : User) : Opening :=
  match user.registration with
  | none => .register user "failed to register acme account"
  | some old =>
      if old.location.trimSpace = [] then .resolve user
      else .returned (.ok user)

/-- The server has named the account. -/
def answered (user : User) (reg : Registration) : Opening :=
  match formats.marshalAccount reg with
  | .error _ => .returned (.ok { user with registration := some reg })
  | .ok data => .openReg { user with registration := some reg } data

/-- The server could not name the account. -/
def unresolved (user : User) : Opening :=
  .register user "failed to recover acme account registration"

/-- One statement of a call. -/
def Opening.next : Opening → Request σ Opening
  | .mkdir => do
      match ← (onDisk mkdirAll).attempt with
      | .ok () => pure .readKey
      | .error err => pure (.returned (.error (.wrap (.because
          "failed to create acme account directory" err))))
  | .readKey => do
      match ← (onDisk (readFile (accountFile env email staging
        accountKey))).attempt with
      | .ok keyData => pure (keyRead env formats keyData)
      | .error err =>
          if err ≠ notExist then pure (.returned (.error (.wrap (.because
            "failed to read acme account key" err))))
          else pure (keyMissing formats)
  | .readReg key => do
      match ← (onDisk (readFile (accountFile env email staging
        accountJson))).attempt with
      | .ok regData =>
          pure (.connect ⟨email, readRegistration formats regData, key⟩)
      | .error _ => pure (.connect ⟨email, none, key⟩)
  | .openKey pk text => do
      match ← (onDisk (openFile (accountFile env email staging
        accountKey))).attempt with
      | .ok () => pure (.writeKey pk text)
      | .error err => pure (.returned (.error (.wrap (.because
          "failed to persist acme account key" err))))
  | .writeKey pk text => do
      match ← (onDisk (writeContent (accountFile env email staging accountKey)
        text)).attempt with
      | .ok () => pure (.connect ⟨email, none, pk⟩)
      | .error err => pure (.returned (.error (.wrap (.because
          "failed to persist acme account key" err))))
  | .connect user => do
      match ← newClient.attempt with
      | .ok () => pure (connected user)
      | .error err => pure (.returned (.error (.because
          "failed to create acme client" err)))
  | .register user message => do
      match ← (AccountClients.register ca user.key).attempt with
      | .ok reg => pure (answered formats user reg)
      | .error err => pure (.returned (.error (.because message err)))
  | .resolve user => do
      match ← (resolveAccountByKey ca user.key).attempt with
      | .ok reg =>
          if reg.location.trimSpace ≠ [] then pure (answered formats user reg)
          else pure (unresolved user)
      | .error _ => pure (unresolved user)
  | .openReg user text => do
      match ← (onDisk (openFile (accountFile env user.email staging
        accountJson))).attempt with
      | .ok () => pure (.writeReg user text)
      | .error _ => pure (.returned (.ok user))
  | .writeReg user text => do
      let _ ← (onDisk (writeContent (accountFile env user.email staging
        accountJson) text)).attempt
      pure (.returned (.ok user))
  | .idle => pure .idle
  | .returned r => pure (.returned r)

/-- `n` statements of a call, one after the other. -/
def Opening.runFor : Nat → Opening → Request σ Opening
  | 0, x => pure x
  | n + 1, x => do
      let x ← x.next env formats ca email staging
      Opening.runFor n x

/-! ### The statements are the function -/

/-- A call that ends as `p` does. -/
def ending (p : Request σ User) : Request σ Opening := do
  let r ← p.attempt
  pure (.returned r)

private theorem runFor_returned (r : Except GoError User) (n : Nat) :
    Opening.runFor env formats ca email staging n (.returned r) =
      ending (Prog.ofExcept r) := by
  induction n with
  | zero => rfl
  | succ n ih => exact ih

private theorem ending_bind {α : Type} (p : Request σ α)
    (f : α → Request σ User) :
    ending (p >>= f) = (do
      match ← p.attempt with
      | .ok a => ending (f a)
      | .error err => ending (Prog.throw err)) := by
  rw [ending, Prog.attempt_bind, bind_assoc]
  refine bind_congr fun r => ?_
  cases r with
  | error err => rfl
  | ok a => rfl

/-- The account file is opened and written. -/
private def storing (user : User) (text : GoString) : Request σ User := do
  match ← (onDisk (openFile (accountFile env user.email staging
    accountJson))).attempt with
  | .ok () => do
      let _ ← (onDisk (writeContent (accountFile env user.email staging
        accountJson) text)).attempt
      pure user
  | .error _ => pure user

private theorem keep_eq (user : User) (reg : Registration) :
    (keep env formats staging user reg : Request σ User) =
      match formats.marshalAccount reg with
      | .error _ => pure { user with registration := some reg }
      | .ok data =>
          storing env staging { user with registration := some reg } data := by
  unfold keep saveACMERegistration
  dsimp only
  cases formats.marshalAccount reg with
  | error err => rfl
  | ok data =>
      dsimp only [Except.mapError]
      have hsave : (Prog.ofExcept (.ok data) >>= fun data =>
          (writeFile (accountFile env user.email staging accountJson)
            data).mapError (.because "failed to persist acme registration")) =
          (openFile (accountFile env user.email staging accountJson) >>=
            fun _ => writeContent (accountFile env user.email staging
              accountJson) data).mapError
                (.because "failed to persist acme registration") := rfl
      rw [hsave, onDisk_mapError, onDisk_bind, Prog.attempt_mapError,
        Prog.attempt_bind, storing]
      simp only [bind_assoc]
      refine bind_congr fun opened => ?_
      cases opened with
      | error err => rfl
      | ok _ => rfl

/-- From the account that names its registration. -/
private theorem runFor_answered (user : User) (reg : Registration) (n : Nat) :
    Opening.runFor env formats ca email staging (n + 2)
        (answered formats user reg) =
      ending (keep env formats staging user reg) := by
  rw [keep_eq, answered]
  cases formats.marshalAccount reg with
  | error err => exact runFor_returned env formats ca email staging _ _
  | ok data =>
      dsimp only
      rw [storing, ending_bind, Opening.runFor, Opening.next]
      simp only [bind_assoc, Prog.attempt_attempt, pure_bind]
      refine bind_congr fun opened => ?_
      cases opened with
      | error err => exact runFor_returned env formats ca email staging _ _
      | ok _ =>
          show (Opening.writeReg _ data).next env formats ca email staging >>=
            Opening.runFor env formats ca email staging n = _
          rw [ending_bind, Opening.next]
          simp only [bind_assoc, Prog.attempt_attempt, pure_bind]
          refine bind_congr fun written => ?_
          exact runFor_returned env formats ca email staging _ _

/-- From `Register`. -/
private theorem runFor_register (user : User) (message : GoString) (n : Nat) :
    Opening.runFor env formats ca email staging (n + 3)
        (.register user message) =
      ending (registerAccount env formats ca staging user message) := by
  show (Opening.register user message).next env formats ca email staging >>=
    Opening.runFor env formats ca email staging (n + 2) = _
  rw [registerAccount, ending_bind, Opening.next, Prog.attempt_mapError]
  simp only [bind_assoc, pure_bind]
  refine bind_congr fun named => ?_
  cases named with
  | error err => exact runFor_returned env formats ca email staging _ _
  | ok reg => exact runFor_answered env formats ca email staging user reg n

/-- From the client that was created. -/
private theorem runFor_connected (user : User) (n : Nat) :
    Opening.runFor env formats ca email staging (n + 4) (connected user) =
      ending (ensureRegistration env formats ca staging user) := by
  unfold connected ensureRegistration
  cases user.registration with
  | none =>
      exact runFor_register env formats ca email staging user _ (n + 1)
  | some old =>
      dsimp only
      split
      · show (Opening.resolve user).next env formats ca email staging >>=
          Opening.runFor env formats ca email staging (n + 3) = _
        rw [ending_bind, Opening.next]
        simp only [bind_assoc, Prog.attempt_attempt, pure_bind]
        refine bind_congr fun named => ?_
        cases named with
        | error err =>
            exact runFor_register env formats ca email staging user _ n
        | ok reg =>
            dsimp only
            split
            · exact runFor_answered env formats ca email staging user reg
                (n + 1)
            · exact runFor_register env formats ca email staging user _ n
      · exact runFor_returned env formats ca email staging _ _

/-- From the account that was loaded. -/
private def connecting (user : User) : Request σ User := do
  newClient.mapError (.because "failed to create acme client")
  ensureRegistration env formats ca staging user

private theorem runFor_connect (user : User) (n : Nat) :
    Opening.runFor env formats ca email staging (n + 5) (.connect user) =
      ending (connecting env formats ca staging user) := by
  show (Opening.connect user).next env formats ca email staging >>=
    Opening.runFor env formats ca email staging (n + 4) = _
  rw [connecting, ending_bind, Opening.next, Prog.attempt_mapError]
  simp only [bind_assoc, pure_bind]
  refine bind_congr fun made => ?_
  cases made with
  | error err => exact runFor_returned env formats ca email staging _ _
  | ok _ => exact runFor_connected env formats ca email staging user n

/-- The account, once its file was looked for. -/
private def loaded (key : GoString) : Except GoError GoString → User
  | .ok regData => ⟨email, readRegistration formats regData, key⟩
  | .error _ => ⟨email, none, key⟩

private theorem onDisk_loadUser {keyData block rest key : GoString}
    (hblock : env.pemDecode keyData = some (block, rest))
    (hkey : formats.parseECPrivateKey block = .ok key) :
    (onDisk (loadUser env formats email staging keyData) : Request σ User) =
      (onDisk (readFile (accountFile env email staging accountJson))).attempt
        >>= fun read => pure (loaded formats email key read) := by
  have hload : loadUser env formats email staging keyData =
      (readFile (accountFile env email staging accountJson)).attempt >>=
        fun read => pure (loaded formats email key read) := by
    unfold loadUser
    rw [hblock]
    dsimp only
    rw [hkey, show Prog.ofExcept ((Except.ok key).mapError (GoError.because
      "failed to parse acme account key")) = (pure key : Handler GoString)
        from rfl, pure_bind]
    refine bind_congr fun read => ?_
    cases read with
    | error err => rfl
    | ok regData => rfl
  rw [hload, onDisk_bind]
  rfl

/-- The key file was read. -/
private theorem runFor_keyRead (keyData : GoString) (n : Nat) :
    Opening.runFor env formats ca email staging (n + 6)
        (keyRead env formats keyData) =
      ending ((onDisk (loadUser env formats email staging keyData)).mapError
        .wrap >>= connecting env formats ca staging) := by
  unfold keyRead
  cases hblock : env.pemDecode keyData with
  | none =>
      unfold loadUser
      rw [hblock]
      exact runFor_returned env formats ca email staging _ _
  | some decoded =>
      dsimp only
      cases hkey : formats.parseECPrivateKey decoded.1 with
      | error err =>
          unfold loadUser
          rw [hblock]
          dsimp only
          rw [hkey]
          exact runFor_returned env formats ca email staging _ _
      | ok key =>
          rw [onDisk_loadUser env formats email staging hblock hkey,
            Prog.mapError_bind, bind_assoc, ending_bind]
          show (Opening.readReg key).next env formats ca email staging >>=
            Opening.runFor env formats ca email staging (n + 5) = _
          rw [Opening.next, Prog.attempt_mapError]
          simp only [bind_assoc, Prog.attempt_attempt, pure_bind]
          refine bind_congr fun read => ?_
          cases read with
          | error err =>
              exact runFor_connect env formats ca email staging _ n
          | ok regData =>
              exact runFor_connect env formats ca email staging _ n

/-- There is no key file. -/
private theorem runFor_keyMissing (n : Nat) :
    Opening.runFor env formats ca email staging (n + 7)
        (keyMissing formats) =
      ending ((onDisk (createUser env formats email staging)).mapError
        .wrap >>= connecting env formats ca staging) := by
  unfold keyMissing createUser
  cases formats.generateKey with
  | error err => exact runFor_returned env formats ca email staging _ _
  | ok pk =>
      rw [show Prog.ofExcept ((Except.ok pk).mapError (GoError.because
        "failed to generate acme account key")) = (pure pk : Handler GoString)
          from rfl, pure_bind]
      dsimp only
      cases formats.marshalECPrivateKey pk with
      | error err => exact runFor_returned env formats ca email staging _ _
      | ok der =>
          rw [show Prog.ofExcept ((Except.ok der).mapError (GoError.because
            "failed to marshal acme account key")) =
              (pure der : Handler GoString) from rfl, pure_bind, writeFile,
            onDisk_bind, Prog.mapError_bind, onDisk_mapError, onDisk_bind,
            Prog.mapError_bind, Prog.mapError_bind, bind_assoc, bind_assoc,
            ending_bind]
          show (Opening.openKey pk _).next env formats ca email staging >>=
            Opening.runFor env formats ca email staging (n + 6) = _
          rw [Opening.next, Prog.attempt_mapError, Prog.attempt_mapError]
          simp only [bind_assoc, pure_bind]
          refine bind_congr fun opened => ?_
          cases opened with
          | error err => exact runFor_returned env formats ca email staging _ _
          | ok _ =>
              show (Opening.writeKey pk _).next env formats ca email staging
                >>= Opening.runFor env formats ca email staging (n + 5) = _
              rw [Opening.next]
              dsimp only [Except.mapError]
              rw [ending_bind, Prog.attempt_mapError, Prog.attempt_mapError]
              simp only [bind_assoc, pure_bind]
              refine bind_congr fun written => ?_
              cases written with
              | error err =>
                  exact runFor_returned env formats ca email staging _ _
              | ok _ => exact runFor_connect env formats ca email staging _ n

/-- **Refinement.**  A call that nothing interrupts is `newACMEClient`. -/
theorem Opening.runFor_eq_newACMEClient (hemail : email.trimSpace ≠ []) :
    Opening.runFor env formats ca email staging 9 .mkdir =
      ending (newACMEClient env formats ca email staging) := by
  have hclient : newACMEClient env formats ca email staging =
      (onDisk (loadOrCreateUser env formats email staging)).mapError .wrap >>=
        connecting env formats ca staging := if_neg hemail
  rw [hclient, loadOrCreateUser, onDisk_bind, Prog.mapError_bind, bind_assoc,
    onDisk_mapError, ending_bind, Opening.runFor, Opening.next,
    Prog.attempt_mapError, Prog.attempt_mapError]
  simp only [bind_assoc, pure_bind]
  refine bind_congr fun made => ?_
  cases made with
  | error err =>
      dsimp only [Except.mapError]
      rw [pure_bind]
      exact runFor_returned env formats ca email staging _ _
  | ok _ =>
      show Opening.readKey.next env formats ca email staging >>=
        Opening.runFor env formats ca email staging 7 = _
      dsimp only [Except.mapError]
      rw [onDisk_bind, Prog.mapError_bind, bind_assoc, ending_bind,
        Opening.next, Prog.attempt_mapError, onDisk_attempt]
      simp only [bind_assoc, Prog.attempt_attempt, pure_bind]
      refine bind_congr fun read => ?_
      cases read with
      | ok keyData =>
          exact runFor_keyRead env formats ca email staging keyData 1
      | error err =>
          dsimp only [Except.mapError]
          split
          · rw [pure_bind]
            exact runFor_returned env formats ca email staging _ _
          · exact runFor_keyMissing env formats ca email staging 0

end Statements

end Hdns.Ports.AccountClients

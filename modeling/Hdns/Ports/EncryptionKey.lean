import Hdns.Ports.AccountDirs
import Hdns.Ports.Secrets

/-!
# The encryption key

The tokens of the records and the headers of the tasks are encrypted with a key
that `loadEncryptionKey` reads from a file of the data directory when the
program starts.  A missing file is created; any other trouble with it ends the
program.

This file has the function, the statements it carries out, at each of which the
program may be killed, and what the calls that save secrets leave behind, however
they end.

## Main results

* `Boot.runFor_eq_loadEncryptionKey` — the statements are the function.
* `Boot.next_advances` — what a statement does.
* `upsertRecord_leaves`, `upsertTask_leaves` — whatever fails, a stored secret
  was there before or was encrypted with the key.
-/

namespace Hdns.Ports.EncryptionKey

open Hdns.Verified
open Hdns.Verified.GoString
open Hdns.Ports.Schema
open Hdns.Ports.UpdateAddress
open Hdns.Ports.Hetzner
open Hdns.Ports.Tasks
open Hdns.Ports.Service
open Hdns.Ports.Records
open Hdns.Ports.Operations
open Hdns.Ports.Certificates
open Hdns.Ports.CertificateFiles
open Hdns.Ports.AccountDirs (notExist)
open Hdns.Ports.TaskEdits
open Hdns.Ports.Secrets

/-! ## `loadEncryptionKey` -/

def encryptionKeyFile : GoString := ".key"

/-- The variable `path`. -/
def keyPath (env : Env) : GoString :=
  GoPath.join [env.dataPath, encryptionKeyFile]

/-- The size of a key of AES-256. -/
def keySize : Nat := 32

section Function

variable (env : Env) (random : Except GoError GoString)

/-- A key for a directory without one; `random` is what
`security.GetRandomBytes` returns. -/
def createKey : Handler GoString := do
  let keyBytes ← Prog.ofExcept (random.mapError
    (.because "failed to generate encryption key"))
  mkdirAll.mapError (.because "failed to create encryption key directory")
  (writeFile (keyPath env) keyBytes).mapError
    (.because "failed to persist encryption key")
  pure keyBytes

/-- `loadEncryptionKey`, with what it sets the variable `key` to. -/
def loadEncryptionKey : Handler GoString := do
  match ← (readFile (keyPath env)).attempt with
  | .ok data =>
      if data.length ≠ keySize then
        Prog.throw (.newError "encryption key file has unexpected size")
      else pure data
  | .error err =>
      if err ≠ notExist then
        Prog.throw (.because "failed to read encryption key file" err)
      else createKey env random

end Function

/-! ## The statements -/

/-- Where the program stands. -/
inductive Boot where
  | down
  /-- Before the file is read. -/
  | read
  /-- Before `os.MkdirAll`, with the new key. -/
  | mkdir (key : GoString)
  /-- Before the file is opened. -/
  | openKey (key : GoString)
  /-- Before the key is written. -/
  | writeKey (key : GoString)
  /-- The key is loaded, and the program serves. -/
  | up (key : GoString)
  /-- The program has ended with this error. -/
  | failed (err : GoError)
  deriving DecidableEq

/-- No start is in progress. -/
def Boot.Settled : Boot → Prop
  | .down | .up _ | .failed _ => True
  | _ => False

section Statements

variable (env : Env) (random : Except GoError GoString)

/-- The file was read. -/
def keyRead (data : GoString) : Boot :=
  if data.length ≠ keySize then
    .failed (.newError "encryption key file has unexpected size")
  else .up data

/-- There is no file. -/
def keyMissing : Boot :=
  match random with
  | .error err => .failed (.because "failed to generate encryption key" err)
  | .ok keyBytes => .mkdir keyBytes

/-- One statement of a start. -/
def Boot.next : Boot → Handler Boot
  | .read => do
      match ← (readFile (keyPath env)).attempt with
      | .ok data => pure (keyRead data)
      | .error err =>
          if err ≠ notExist then
            pure (.failed (.because "failed to read encryption key file" err))
          else pure (keyMissing random)
  | .mkdir key => do
      match ← mkdirAll.attempt with
      | .ok () => pure (.openKey key)
      | .error err => pure (.failed (.because
          "failed to create encryption key directory" err))
  | .openKey key => do
      match ← (openFile (keyPath env)).attempt with
      | .ok () => pure (.writeKey key)
      | .error err => pure (.failed (.because
          "failed to persist encryption key" err))
  | .writeKey key => do
      match ← (writeContent (keyPath env) key).attempt with
      | .ok () => pure (.up key)
      | .error err => pure (.failed (.because
          "failed to persist encryption key" err))
  | .down => pure .down
  | .up key => pure (.up key)
  | .failed err => pure (.failed err)

/-- `n` statements, one after the other. -/
def Boot.runFor : Nat → Boot → Handler Boot
  | 0, b => pure b
  | n + 1, b => do
      let b ← b.next env random
      Boot.runFor n b

/-- Where a start leads that ends as `p` does. -/
def ending (p : Handler GoString) : Handler Boot := do
  match ← p.attempt with
  | .ok key => pure (.up key)
  | .error err => pure (.failed err)

private theorem runFor_up (key : GoString) (n : Nat) :
    Boot.runFor env random n (.up key) = pure (.up key) := by
  induction n with
  | zero => rfl
  | succ n ih => exact ih

private theorem runFor_failed (err : GoError) (n : Nat) :
    Boot.runFor env random n (.failed err) = pure (.failed err) := by
  induction n with
  | zero => rfl
  | succ n ih => exact ih

/-- From the opening of the file. -/
private theorem runFor_openKey (key : GoString) (n : Nat) :
    Boot.runFor env random (n + 2) (.openKey key) =
      ending ((writeFile (keyPath env) key).mapError
        (.because "failed to persist encryption key") >>= fun _ =>
          pure key) := by
  rw [ending, writeFile, Prog.mapError_bind, Prog.attempt_bind,
    Prog.attempt_bind, Prog.attempt_mapError, Boot.runFor, Boot.next]
  simp only [bind_assoc, pure_bind]
  refine bind_congr fun opened => ?_
  cases opened with
  | error err =>
      dsimp only [Except.mapError]
      simp only [pure_bind]
      exact runFor_failed env random _ _
  | ok _ =>
      dsimp only [Except.mapError]
      rw [pure_bind, Prog.attempt_mapError, Boot.runFor, Boot.next]
      simp only [bind_assoc, pure_bind]
      refine bind_congr fun written => ?_
      cases written with
      | error err =>
          dsimp only [Except.mapError]
          simp only [pure_bind]
          exact runFor_failed env random _ _
      | ok _ =>
          dsimp only [Except.mapError]
          simp only [pure_bind]
          exact runFor_up env random _ _

/-- From the missing file. -/
private theorem runFor_keyMissing (n : Nat) :
    Boot.runFor env random (n + 3) (keyMissing random) =
      ending (createKey env random) := by
  unfold keyMissing createKey
  cases random with
  | error err => exact runFor_failed env _ _ _
  | ok key =>
      rw [show Prog.ofExcept ((Except.ok key).mapError (GoError.because
        "failed to generate encryption key")) = (pure key : Handler GoString)
          from rfl, pure_bind]
      show (Boot.mkdir key).next env (.ok key) >>=
        Boot.runFor env (.ok key) (n + 2) = _
      rw [ending, Prog.attempt_bind, Prog.attempt_mapError, Boot.next]
      simp only [bind_assoc, pure_bind]
      refine bind_congr fun made => ?_
      cases made with
      | error err =>
          dsimp only [Except.mapError]
          simp only [pure_bind]
          exact runFor_failed env _ _ _
      | ok _ =>
          dsimp only [Except.mapError]
          rw [pure_bind]
          exact runFor_openKey env (.ok key) key n

/-- **Refinement.**  A start that nothing interrupts is `loadEncryptionKey`. -/
theorem Boot.runFor_eq_loadEncryptionKey :
    Boot.runFor env random 4 .read = ending (loadEncryptionKey env random) := by
  rw [ending, loadEncryptionKey, Prog.attempt_bind, Boot.runFor, Boot.next,
    Prog.attempt_attempt]
  simp only [bind_assoc, pure_bind]
  refine bind_congr fun read => ?_
  cases read with
  | ok data =>
      dsimp only
      rw [pure_bind, keyRead]
      split
      · exact runFor_failed env random _ _
      · exact runFor_up env random _ _
  | error err =>
      dsimp only
      split
      · rw [pure_bind]
        exact runFor_failed env random _ _
      · rw [pure_bind]
        exact runFor_keyMissing env random 0

/-- **What a statement does**: the program moves, and nothing but the key file
changes. -/
inductive Advances (w : World) : Boot → Boot → World → Prop where
  | rest (b : Boot) (hb : b.Settled) : Advances w b b w
  | failed (b : Boot) (err : GoError) : Advances w b (.failed err) w
  | loaded (key : GoString) (hfile : w.files (keyPath env) = some key)
      (hsize : key.length = keySize) : Advances w .read (.up key) w
  | missing (key : GoString) (hrandom : random = .ok key)
      (hfile : w.files (keyPath env) = none) : Advances w .read (.mkdir key) w
  | made (key : GoString) : Advances w (.mkdir key) (.openKey key) w
  | opened (key : GoString) :
      Advances w (.openKey key) (.writeKey key) (setFile (keyPath env) [] w)
  | unopened (key : GoString) (err : GoError) :
      Advances w (.openKey key) (.failed err) (setFile (keyPath env) [] w)
  | written (key : GoString) :
      Advances w (.writeKey key) (.up key) (setFile (keyPath env) key w)
  | unwritten (key : GoString) (err : GoError) :
      Advances w (.writeKey key) (.failed err) (setFile (keyPath env) key w)

theorem Boot.next_advances (b : Boot) (o : Oracle Call) (s : Sys World) :
    (b.next env random).wp o s fun r t => ∃ b', r = .ok b' ∧
      Advances env random s.state b b' t.state := by
  cases b with
  | down => exact ⟨_, rfl, .rest _ trivial⟩
  | up key => exact ⟨_, rfl, .rest _ trivial⟩
  | failed err => exact ⟨_, rfl, .rest _ trivial⟩
  | read =>
      unfold Boot.next
      rw [Prog.wp_bind, Prog.wp_attempt]
      refine Prog.wp_query_of ?_ ⟨_, rfl, .failed _ _⟩
      cases hfile : s.state.files (keyPath env) with
      | none =>
          show ∃ b', Except.ok (keyMissing random) = .ok b' ∧
            Advances env random s.state .read b' s.state
          refine ⟨_, rfl, ?_⟩
          unfold keyMissing
          cases hrandom : random with
          | error err => exact .failed _ _
          | ok key => exact .missing key rfl hfile
      | some data =>
          refine ⟨_, rfl, ?_⟩
          unfold keyRead
          split
          · exact .failed _ _
          · next hsize => exact .loaded data hfile (not_not.mp hsize)
  | mkdir key =>
      unfold Boot.next
      rw [Prog.wp_bind, Prog.wp_attempt]
      exact Prog.wp_call_of ⟨_, rfl, .made key⟩
        (fun _ => ⟨_, rfl, .failed _ _⟩) (fun _ => ⟨_, rfl, .failed _ _⟩)
  | openKey key =>
      unfold Boot.next
      rw [Prog.wp_bind, Prog.wp_attempt]
      exact Prog.wp_call_of ⟨_, rfl, .opened key⟩
        (fun _ => ⟨_, rfl, .failed _ _⟩) (fun _ => ⟨_, rfl, .unopened key _⟩)
  | writeKey key =>
      unfold Boot.next
      rw [Prog.wp_bind, Prog.wp_attempt]
      exact Prog.wp_call_of ⟨_, rfl, .written key⟩
        (fun _ => ⟨_, rfl, .failed _ _⟩) (fun _ => ⟨_, rfl, .unwritten key _⟩)

end Statements

/-! ## What the calls leave -/

section Calls

/-- The key was used for the token. -/
def TokenOf (env : Env) (e : GoString) : Prop :=
  ∃ text, env.encrypt env.encryptionKey text = .ok e

/-- The key was used for the headers, or there are none. -/
def HeadersOf (env : Env) (lib : Library) (h : NullString) : Prop :=
  ∃ text, encryptHeaders env lib text = .ok h

variable (env : Env) (lib : Library)

/-- The files stay, and a secret that is new was encrypted with the key. -/
structure Leaves (w w' : World) : Prop where
  files : w'.files = w.files
  tokens : ∀ id e, tokens w' id = some e → tokens w id = some e ∨ TokenOf env e
  headers : ∀ id h, headers w' id = some h →
    headers w id = some h ∨ HeadersOf env lib h

/-- The files and the secrets stay. -/
structure Untouched (w w' : World) : Prop where
  files : w'.files = w.files
  tokens : tokens w' = tokens w
  headers : headers w' = headers w

variable {env lib} {o : Oracle Call}

theorem Leaves.refl (w : World) : Leaves env lib w w :=
  ⟨rfl, fun _ _ h => .inl h, fun _ _ h => .inl h⟩

theorem Leaves.trans (w₁ w₂ w₃ : World) (h : Leaves env lib w₁ w₂)
    (h' : Leaves env lib w₂ w₃) : Leaves env lib w₁ w₃ where
  files := h'.files.trans h.files
  tokens := fun id e he => (h'.tokens id e he).elim (h.tokens id e) .inr
  headers := fun id b hb => (h'.headers id b hb).elim (h.headers id b) .inr

theorem Untouched.refl (w : World) : Untouched w w := ⟨rfl, rfl, rfl⟩

theorem Untouched.trans (w₁ w₂ w₃ : World) (h : Untouched w₁ w₂)
    (h' : Untouched w₂ w₃) : Untouched w₁ w₃ :=
  ⟨h'.files.trans h.files, h'.tokens.trans h.tokens,
    h'.headers.trans h.headers⟩

theorem Untouched.leaves {w w' : World} (h : Untouched w w') :
    Leaves env lib w w' where
  files := h.files
  tokens := fun _ _ he => .inl (h.tokens ▸ he)
  headers := fun _ _ hb => .inl (h.headers ▸ hb)

/-! ### After a record was saved -/

theorem updateRecordAddress_untouched (addressID id : Int) :
    Prog.Keeps o Untouched (updateRecordAddress addressID id) := by
  refine .call Untouched.refl fun w => ?_
  split
  · exact Untouched.refl w
  · exact ⟨rfl, Table.column_updateWhere_of_kept (by intro _; rfl) fun _ => rfl,
      rfl⟩

theorem fireTasks_untouched (recordID : Int) (event : Trigger)
    (job : Option Int) :
    Prog.Keeps o Untouched (fireTasks env recordID event job) := by
  refine fireTasks_keeps ⟨Untouched.refl, fun _ _ => Untouched.trans, ?_, ?_,
    ?_⟩ env recordID event job
  · exact fun _ _ => ⟨rfl, rfl, rfl⟩
  · exact fun _ _ _ => ⟨rfl, rfl, rfl⟩
  · exact fun _ _ _ _ _ => ⟨rfl, rfl, Table.column_updateWhere_of_kept
      (by intro _; rfl) fun _ => rfl⟩

theorem refreshRecord_untouched (record : Record) :
    Prog.Keeps o Untouched (refreshRecord env record) := by
  refine .ite (fun _ => ?_) fun _ => .pure Untouched.refl _
  refine .bind Untouched.trans (.mapError (.query Untouched.refl) _)
    fun current => ?_
  cases current.ipv4 with
  | none => exact .throw Untouched.refl _
  | some ip =>
      have hupdate : Prog.Keeps o Untouched (updateRecord env record current) :=
        updateRecord_keeps Untouched.refl Untouched.trans env
          (fun _ _ _ => ⟨rfl, rfl, rfl⟩) (updateRecordAddress_untouched _ _)
      exact applyCurrent_keeps Untouched.refl Untouched.trans env hupdate
        (fun _ => fireTasks_untouched _ _ _) ip

theorem startIssuance_untouched (recordID : Int) :
    Prog.Keeps o Untouched (startIssuance env recordID) := by
  refine .bind Untouched.trans (.mapError (.query Untouched.refl) _)
    fun record => ?_
  refine .bind Untouched.trans (takeSlot_keeps Untouched.refl Untouched.trans
    (fun _ _ => ⟨rfl, rfl, rfl⟩) env record) fun _ => ?_
  refine .bind Untouched.trans (.attempt (ensureCertificateRow_keeps
    Untouched.refl Untouched.trans (fun _ _ => ⟨rfl, rfl, rfl⟩) _ _))
    fun r => ?_
  split
  · exact .bind Untouched.trans (.modify fun _ => ⟨rfl, rfl, rfl⟩) fun _ =>
      .throw Untouched.refl _
  · exact .modify fun _ => ⟨rfl, rfl, rfl⟩

theorem afterSave_untouched (record : Record) :
    Prog.Keeps o Untouched (afterSave env record) := by
  refine .bind Untouched.trans (.mapError (refreshRecord_untouched record) _)
    fun record => ?_
  refine .bind Untouched.trans (.ite (fun _ => ?_) fun _ =>
    .pure Untouched.refl _) fun _ => ?_
  · exact .bind Untouched.trans (.attempt (startIssuance_untouched _))
      fun _ => .pure Untouched.refl _
  · unfold answer
    split
    · exact .pure Untouched.refl _
    · exact .bind Untouched.trans (.mapError (.query Untouched.refl) _)
        fun _ => .pure Untouched.refl _

/-! ### Saving a record -/

/-- A value that a save may store in the row `id`: the one that the row has, or
one of its own, which it has encrypted. -/
def Storable {β : Type} (old : Int → Option β) (own : β → Prop) (id : Int)
    (b : β) : Prop :=
  id ≠ 0 ∧ old id = some b ∨ own b

/-- A column after a row was set. -/
theorem Storable.update {β : Type} {old new : Int → Option β} {own : β → Prop}
    {id i : Int} {b : β} (h : Storable old own id b) (hid : id ≠ 0 → i = id)
    (hnew : new = Function.update old i (some b)) :
    ∀ j c, new j = some c → old j = some c ∨ own c := by
  intro j c hc
  rw [hnew] at hc
  by_cases hj : j = i
  · subst hj
    rw [Function.update_self] at hc
    obtain rfl := Option.some.inj hc
    rcases h with ⟨hne, hold⟩ | hown
    · exact .inl (hid hne ▸ hold)
    · exact .inr hown
  · rw [Function.update_of_ne hj] at hc
    exact .inl hc

section Record

variable {s : Sys World} {input : RecordInput}

/-- A statement whose effect on this state is inside a relation. -/
private theorem wp_call_keeps {α : Type} {R : World → World → Prop} {c : Call}
    {err : GoError} {act : World → Except GoError α × World}
    (hrefl : ∀ w, R w w) (h : R s.state (act s.state).2) :
    (Prog.call c err act : Handler α).wp o s fun _ t => R s.state t.state :=
  Prog.wp_call_of h (fun _ => hrefl _) (fun _ => h)

theorem createRecord_leaves {p : RecordParams} (h : TokenOf env p.token) :
    (createRecord env p).wp o s fun _ t => Leaves env lib s.state t.state := by
  refine wp_call_keeps Leaves.refl ?_
  split
  · exact Leaves.refl _
  · split
    · exact ⟨rfl, fun _ _ h => .inl h, fun _ _ h => .inl h⟩
    · refine ⟨rfl, ?_, fun _ _ h => .inl h⟩
      have hstorable : Storable (tokens s.state) (TokenOf env) 0 p.token :=
        .inr h
      exact hstorable.update (fun hne => absurd rfl hne)
        (Table.column_insert fun _ => rfl)

theorem updateRecordRow_leaves {p : RecordParams} {id : Int}
    (h : Storable (tokens s.state) (TokenOf env) id p.token) :
    (updateRecordRow env id p).wp o s fun _ t =>
      Leaves env lib s.state t.state := by
  refine wp_call_keeps Leaves.refl ?_
  split
  · exact Leaves.refl _
  · next hsome =>
    split
    · exact Leaves.refl _
    · split
      · exact Leaves.refl _
      · have hfound : (s.state.records.find? id).isSome = true := by
          simpa [Option.isSome_iff_ne_none] using hsome
        refine ⟨rfl, ?_, fun _ _ h => .inl h⟩
        exact h.update (fun _ => rfl) (Table.column_updateWhere
          (by intro _; rfl) (by intro _; rfl) hfound)

theorem storeRow_leaves {token : GoString}
    (h : Storable (tokens s.state) (TokenOf env) input.id token) :
    (storeRow env input token).wp o s fun _ t =>
      Leaves env lib s.state t.state := by
  unfold storeRow
  split
  · next hzero =>
    exact createRecord_leaves (h.resolve_left fun hkept => hkept.1 hzero)
  · rw [Prog.wp_bind, Prog.wp_mapError]
    have hrow : (updateRecordRow env input.id (input.params token)).wp o s
        fun _ t => Leaves env lib s.state t.state :=
      updateRecordRow_leaves h
    refine Prog.wp_mono hrow ?_
    rintro (err | _) t hleaves
    · exact hleaves
    · exact hleaves

/-- What is read before the row is stored. -/
theorem storedToken_storable {encrypted : GoString}
    (hencrypted : env.encrypt env.encryptionKey input.token = .ok encrypted) :
    (storedToken input encrypted).wp o s fun r t => t.state = s.state ∧
      ∀ token, r = .ok token →
        Storable (tokens s.state) (TokenOf env) input.id token := by
  unfold storedToken
  split
  · next hkept =>
    rw [Prog.wp_bind, Prog.wp_mapError]
    refine Prog.wp_mono (getRecord_spec o s input.id) ?_
    rintro (err | record) t ⟨hstate, hfound⟩
    · exact ⟨hstate, fun _ h => by cases h⟩
    · refine ⟨hstate, fun token htoken => ?_⟩
      obtain rfl := Except.ok.inj htoken
      exact .inl ⟨hkept.1, Table.column_eq_some (hfound record rfl)⟩
  · refine ⟨rfl, fun token htoken => ?_⟩
    obtain rfl := Except.ok.inj htoken
    exact .inr ⟨_, hencrypted⟩

theorem saveRecord_leaves {encrypted : GoString}
    (hencrypted : env.encrypt env.encryptionKey input.token = .ok encrypted) :
    (saveRecord env input encrypted).wp o s fun _ t =>
      Leaves env lib s.state t.state := by
  have hstore : (storeRecord env input encrypted).wp o s fun _ t =>
      Leaves env lib s.state t.state := by
    refine Prog.wp_bind_of (storedToken_storable hencrypted) ?_ ?_
    · exact fun _ t h => h.1 ▸ Leaves.refl _
    · rintro token t ⟨hstate, hstorable⟩
      rw [← hstate] at hstorable ⊢
      exact storeRow_leaves (hstorable token rfl)
  refine Prog.wp_bind_of hstore (fun _ _ h => h) fun id t h => ?_
  rw [Prog.wp_mapError]
  refine Prog.wp_mono (getRecord_spec o t id) ?_
  rintro r u ⟨hu, -⟩
  rw [hu]
  exact h

/-- **Whatever becomes of `UpsertRecord`**, it stores encrypted tokens only. -/
theorem upsertRecord_leaves :
    Prog.Keeps o (Leaves env lib) (upsertRecord env input) := by
  intro s
  unfold upsertRecord
  rw [Prog.wp_bind, Prog.wp_ofExcept]
  cases hchecked : checkInput env input with
  | error err => exact Leaves.refl _
  | ok encrypted =>
      obtain ⟨-, hencrypted⟩ := checkInput_ok hchecked
      refine Prog.wp_bind_of (R := fun _ t => Leaves env lib s.state t.state)
        (saveRecord_leaves hencrypted) (fun _ _ h => h) fun record t h => ?_
      exact Prog.wp_mono (afterSave_untouched record t) fun _ _ h' =>
        h.trans _ _ _ h'.leaves

end Record

/-! ### Saving a task -/

section Task

variable {s : Sys World} {input : TaskInput}

theorem getTask_spec (s : Sys World) (id : Int) :
    (getTask id).wp o s fun r t => t.state = s.state ∧
      ∀ task, r = .ok task → s.state.tasks.find? id = some task := by
  refine Prog.wp_query_of ⟨rfl, fun task h => ?_⟩ ⟨rfl, fun _ h => by cases h⟩
  cases hfind : s.state.tasks.find? id with
  | none =>
      rw [hfind] at h
      cases h
  | some t =>
      rw [hfind] at h
      exact congrArg some (Except.ok.inj h)

theorem createTask_leaves {p : TaskParams} (h : HeadersOf env lib p.headers) :
    (createTask p).wp o s fun _ t => Leaves env lib s.state t.state := by
  refine wp_call_keeps Leaves.refl ?_
  split
  · exact Leaves.refl _
  · split
    · exact ⟨rfl, fun _ _ h => .inl h, fun _ _ h => .inl h⟩
    · refine ⟨rfl, fun _ _ h => .inl h, ?_⟩
      have hstorable : Storable (headers s.state) (HeadersOf env lib) 0
          p.headers := .inr h
      exact hstorable.update (fun hne => absurd rfl hne)
        (Table.column_insert fun _ => rfl)

theorem updateTask_leaves {p : TaskParams} {id : Int}
    (h : Storable (headers s.state) (HeadersOf env lib) id p.headers) :
    (updateTask id p).wp o s fun _ t => Leaves env lib s.state t.state := by
  refine wp_call_keeps Leaves.refl ?_
  split
  · exact Leaves.refl _
  · next hsome =>
    split
    · exact Leaves.refl _
    · split
      · exact Leaves.refl _
      · have hfound : (s.state.tasks.find? id).isSome = true := by
          simpa [Option.isSome_iff_ne_none] using hsome
        refine ⟨rfl, fun _ _ h => .inl h, ?_⟩
        exact h.update (fun _ => rfl) (Table.column_updateWhere
          (by intro _; rfl) (by intro _; rfl) hfound)

theorem storeTaskRow_leaves {h : NullString}
    (hstorable : Storable (headers s.state) (HeadersOf env lib) input.id h) :
    (storeTaskRow lib input h).wp o s fun _ t =>
      Leaves env lib s.state t.state := by
  unfold storeTaskRow
  split
  · next hzero =>
    exact createTask_leaves (hstorable.resolve_left fun hkept => hkept.1 hzero)
  · rw [Prog.wp_bind, Prog.wp_mapError]
    have hrow : (updateTask input.id (input.params lib h)).wp o s fun _ t =>
        Leaves env lib s.state t.state := updateTask_leaves hstorable
    refine Prog.wp_mono hrow ?_
    rintro (err | _) t hleaves
    · exact hleaves
    · exact hleaves

theorem newHeaders_storable (s : Sys World) :
    (newHeaders env lib input).wp o s fun r t => t.state = s.state ∧
      ∀ h, r = .ok h → HeadersOf env lib h :=
  ⟨rfl, fun _ hr => ⟨_, Prog.mapError_eq_ok.mp hr⟩⟩

/-- What is read before the row is stored. -/
theorem storedHeaders_storable :
    (storedHeaders env lib input).wp o s fun r t => t.state = s.state ∧
      ∀ h, r = .ok h →
        Storable (headers s.state) (HeadersOf env lib) input.id h := by
  have hnew : ∀ u : Sys World, u.state = s.state →
      (newHeaders env lib input).wp o u fun r t => t.state = s.state ∧
        ∀ h, r = .ok h →
          Storable (headers s.state) (HeadersOf env lib) input.id h :=
    fun u hu => Prog.wp_mono (newHeaders_storable u) fun _ _ hr =>
      ⟨hr.1.trans hu, fun h hh => .inr (hr.2 h hh)⟩
  unfold storedHeaders
  split
  · exact hnew s rfl
  · next hupdate =>
    rw [Prog.wp_bind, Prog.wp_mapError]
    refine Prog.wp_mono (getTask_spec s input.id) ?_
    rintro (err | task) t ⟨hstate, hfound⟩
    · exact ⟨hstate, fun _ h => by cases h⟩
    · dsimp only [Except.mapError]
      split
      · exact hnew t hstate
      · refine ⟨hstate, fun h hh => ?_⟩
        obtain rfl := Except.ok.inj hh
        exact .inl ⟨hupdate, Table.column_eq_some (hfound task rfl)⟩

/-- **Whatever becomes of `UpsertTask`**, it stores encrypted headers only. -/
theorem upsertTask_leaves :
    Prog.Keeps o (Leaves env lib) (upsertTask env lib input) := by
  intro s
  have hsave : (saveTask env lib input).wp o s fun _ t =>
      Leaves env lib s.state t.state := by
    refine Prog.wp_bind_of storedHeaders_storable ?_ ?_
    · exact fun _ t h => h.1 ▸ Leaves.refl _
    · rintro h t ⟨hstate, hstorable⟩
      rw [← hstate] at hstorable ⊢
      refine Prog.wp_bind_of (storeTaskRow_leaves (hstorable h rfl))
        (fun _ _ h => h) fun id u hu => ?_
      refine Prog.wp_mono (getTask_spec u id) ?_
      rintro r v ⟨hv, -⟩
      rw [hv]
      exact hu
  unfold upsertTask
  rw [Prog.wp_bind, Prog.wp_ofExcept]
  cases checkTask input with
  | error err => exact Leaves.refl _
  | ok _ =>
      exact Prog.wp_bind_of (R := fun _ t => Leaves env lib s.state t.state)
        hsave (fun _ _ h => h) fun _ _ h => h

end Task

end Calls

end Hdns.Ports.EncryptionKey

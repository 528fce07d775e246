import Hdns.Ports.AccountClients

/-!
# Calls for one account side by side

The calls of `newACMEClient` for one e-mail address share the two files of the
account.  A step of this machine is one statement of one call, so that any
number of calls interleave anywhere, and the process can end between any two
statements.

A key that was not found is generated and written.  Another call that looks for
the key before that finds none either, and overwrites the first key with its
own: the account file may then name the account of a key that is gone.  Apart
from that the calls need no order, because the server keeps one account for a
key.  A run in which no call finds the key file missing while another one is
about to write it keeps `Inv`: each call that has a key has the key of the
file, and whatever names an account, a call or the account file, names the
account of this key.

## Main results

* `next_moves` — what a statement does, whatever fails.
* `sound_step` — what a guarded step keeps.
* `clients_share_account` — all clients of a guarded run sign for one account.
* `account_recovers_iff` — after which cuts a call gets through again.
* `racing_calls_part_account` — without the guard, the account file can name
  the account of a key that is gone.
-/

namespace Hdns.Ports.AccountRuns

open Hdns.Verified
open Hdns.Verified.GoString
open Hdns.Ports.Schema
open Hdns.Ports.Certificates
open Hdns.Ports.CertificateFiles
open Hdns.Ports.AccountDirs
open Hdns.Ports.AccountClients

/-! ## The machine -/

/-- The desk and the calls. -/
structure State (σ : Type) where
  desk : Desk σ
  calls : Pool Opening

/-- A label: a call begins or carries out its next statement, which takes `pk`
if it generates a key; other files of the server change; another account of the
ACME server changes; or the process ends and starts again. -/
inductive Label (σ : Type) where
  | begins (i : Nat)
  | step (i : Nat) (pk : Except GoError GoString) (o : Oracle AcmeCall)
  | others (w : World)
  | authority (c : σ)
  | restart

/-- No call is under way here. -/
def Opening.isOver : Opening → Bool
  | .idle => true
  | .returned _ => true
  | _ => false

section Machine

variable {σ : Type} (env : Env) (formats : Formats) (ca : Authority σ)
  (email : GoString) (staging : Bool)

/-- The key file and the account file. -/
def keyPath : GoString := accountFile env email staging accountKey
def regPath : GoString := accountFile env email staging accountJson

/-- Everything but the two files of the account. -/
def elsewhere (w w' : World) : World :=
  { w' with files := fun p =>
      if p = keyPath env email staging ∨ p = regPath env email staging then
        w.files p
      else w'.files p }

/-- The calls of `newACMEClient` for one account. -/
def clients : Machine (State σ) (Label σ) where
  step s
    | .begins i =>
        if Opening.isOver (s.calls i) then
          some { s with calls := s.calls.set i .mkdir }
        else none
    | .step i pk o =>
        match (s.calls i).next env { formats with generateKey := pk } ca email
            staging o ⟨s.desk, 0⟩ with
        | (.ok x, sys) => some ⟨sys.state, s.calls.set i x⟩
        | (.error _, _) => none
    | .others w => some { s with
        desk.world := elsewhere env email staging s.desk.world w }
    | .authority c => some { s with desk.ca := c }
    | .restart => some { s with calls := fun _ => .idle }

/-! ## What a statement does -/

/-- The file is written, or it is not. -/
def Writes (path content : GoString) (d d' : Desk σ) : Prop :=
  d' = { d with world := setFile path content d.world } ∨ d' = d

/-- What a statement can do, from where the call stands to where it stands
afterwards. -/
inductive Moves (d : Desk σ) : Opening → Opening → Desk σ → Prop
  | rest (x) : Opening.isOver x = true → Moves d x x d
  | failed (x err) : Moves d x (.returned (.error err)) d
  | mkdir : Moves d .mkdir .readKey d
  | keyRead (data) : d.world.files (keyPath env email staging) = some data →
      Moves d .readKey (keyRead env formats data) d
  | keyMissing (pk) : d.world.files (keyPath env email staging) = none →
      Moves d .readKey (keyMissing { formats with generateKey := pk }) d
  | regRead (key data) :
      d.world.files (regPath env email staging) = some data →
      Moves d (.readReg key)
        (.connect ⟨email, readRegistration formats data, key⟩) d
  | regMissing (key) : Moves d (.readReg key) (.connect ⟨email, none, key⟩) d
  | keyOpened (pk text) : Moves d (.openKey pk text) (.writeKey pk text)
      { d with world := setFile (keyPath env email staging) [] d.world }
  | keyUnopened (pk text err d') :
      Writes (keyPath env email staging) [] d d' →
      Moves d (.openKey pk text) (.returned (.error err)) d'
  | keyWritten (pk text) :
      Moves d (.writeKey pk text) (.connect ⟨email, none, pk⟩)
        { d with world := setFile (keyPath env email staging) text d.world }
  | keyUnwritten (pk text err d') :
      Writes (keyPath env email staging) text d d' →
      Moves d (.writeKey pk text) (.returned (.error err)) d'
  | connected (user) : Moves d (.connect user) (connected user) d
  | registered (user message reg) :
      (ca.newAccount user.key d.ca).1 = .ok reg →
      Moves d (.register user message) (answered formats user reg)
        { d with ca := (ca.newAccount user.key d.ca).2 }
  | unregistered (user message err) :
      Moves d (.register user message) (.returned (.error err))
        { d with ca := (ca.newAccount user.key d.ca).2 }
  | resolved (user reg) : ca.existingAccount user.key d.ca = .ok reg →
      Moves d (.resolve user) (answered formats user reg) d
  | unresolved (user) : Moves d (.resolve user) (unresolved user) d
  | regOpened (user text) :
      Moves d (.openReg user text) (.writeReg user text)
        { d with world := setFile (accountFile env user.email staging
          accountJson) [] d.world }
  | regUnopened (user text d') :
      Writes (accountFile env user.email staging accountJson) [] d d' →
      Moves d (.openReg user text) (.returned (.ok user)) d'
  | regWritten (user text d') :
      Writes (accountFile env user.email staging accountJson) text d d' →
      Moves d (.writeReg user text) (.returned (.ok user)) d'

/-- A read of a file, however it ends. -/
theorem onDisk_read (path : GoString) (o : Oracle AcmeCall)
    (s : Sys (Desk σ)) :
    (onDisk (readFile path)).wp o s fun res t => t.state = s.state ∧
      (∀ data, res = .ok data → s.state.world.files path = some data) ∧
        (res = .error notExist → s.state.world.files path = none) := by
  have hother : GoError.external "read: input/output error" ≠ notExist := by
    decide
  unfold onDisk readFile
  rw [Prog.wp_within]
  refine Prog.wp_query_of ?_
    ⟨rfl, nofun, fun h => absurd (Except.error.inj h) hother⟩
  cases hfile : s.state.world.files path with
  | none => exact ⟨rfl, nofun, fun _ => rfl⟩
  | some content =>
      exact ⟨rfl, fun data h => congrArg some (Except.ok.inj h), nofun⟩

/-- A call that sets a file, however it ends. -/
theorem onDisk_sets {c : Call} {err : GoError} (path content : GoString)
    (o : Oracle AcmeCall) (s : Sys (Desk σ)) :
    (onDisk (Prog.call c err fun w =>
        (.ok (), setFile path content w))).wp o s fun res t =>
      Writes path content s.state t.state ∧
        (res = .ok () → t.state =
          { s.state with world := setFile path content s.state.world }) := by
  unfold onDisk
  rw [Prog.wp_within]
  have hfailed : (.error err : Except GoError Unit) = .ok () → False := by simp
  exact Prog.wp_call_of ⟨.inl rfl, fun _ => rfl⟩
    (fun _ => ⟨.inr rfl, fun h => (hfailed h).elim⟩)
    (fun _ => ⟨.inl rfl, fun h => (hfailed h).elim⟩)

/-- **What a statement does**, whatever fails. -/
theorem next_moves (pk : Except GoError GoString) (o : Oracle AcmeCall)
    (x : Opening) (s : Sys (Desk σ)) :
    (x.next env { formats with generateKey := pk } ca email staging).wp o s
      fun res t => ∃ y, res = .ok y ∧
        Moves env formats ca email staging s.state x y t.state := by
  cases x with
  | idle => exact ⟨_, rfl, .rest _ rfl⟩
  | returned r => exact ⟨_, rfl, .rest _ rfl⟩
  | mkdir =>
      unfold Opening.next
      rw [Prog.wp_bind, Prog.wp_attempt]
      unfold onDisk mkdirAll
      rw [Prog.wp_within]
      exact Prog.wp_call_of ⟨_, rfl, .mkdir⟩ (fun _ => ⟨_, rfl, .failed _ _⟩)
        (fun _ => ⟨_, rfl, .failed _ _⟩)
  | readKey =>
      unfold Opening.next
      rw [Prog.wp_bind, Prog.wp_attempt]
      refine Prog.wp_mono (onDisk_read _ o s) ?_
      rintro (err | data) t ⟨ht, hread, hmissing⟩
      · dsimp only
        split
        · exact ⟨_, rfl, ht ▸ .failed _ _⟩
        · next herr =>
          have hnone := hmissing (by rw [not_not.mp herr])
          refine ⟨_, rfl, ?_⟩
          rw [← ht] at hnone ⊢
          exact .keyMissing pk hnone
      · have hdata := hread data rfl
        refine ⟨_, rfl, ?_⟩
        rw [← ht] at hdata ⊢
        exact .keyRead data hdata
  | readReg key =>
      unfold Opening.next
      rw [Prog.wp_bind, Prog.wp_attempt]
      refine Prog.wp_mono (onDisk_read _ o s) ?_
      rintro (err | data) t ⟨ht, hread, -⟩
      · exact ⟨_, rfl, ht ▸ .regMissing key⟩
      · have hdata := hread data rfl
        refine ⟨_, rfl, ?_⟩
        rw [← ht] at hdata ⊢
        exact .regRead key data hdata
  | openKey key text =>
      unfold Opening.next
      rw [Prog.wp_bind, Prog.wp_attempt]
      refine Prog.wp_mono (onDisk_sets _ [] o s) ?_
      rintro (err | _) t ⟨hwrites, hdone⟩
      · exact ⟨_, rfl, .keyUnopened _ _ _ _ hwrites⟩
      · exact ⟨_, rfl, hdone rfl ▸ .keyOpened key text⟩
  | writeKey key text =>
      unfold Opening.next
      rw [Prog.wp_bind, Prog.wp_attempt]
      refine Prog.wp_mono (onDisk_sets _ text o s) ?_
      rintro (err | _) t ⟨hwrites, hdone⟩
      · exact ⟨_, rfl, .keyUnwritten _ _ _ _ hwrites⟩
      · exact ⟨_, rfl, hdone rfl ▸ .keyWritten key text⟩
  | connect user =>
      unfold Opening.next
      rw [Prog.wp_bind, Prog.wp_attempt]
      exact Prog.wp_query_of ⟨_, rfl, .connected user⟩ ⟨_, rfl, .failed _ _⟩
  | register user message =>
      unfold Opening.next
      rw [Prog.wp_bind, Prog.wp_attempt]
      refine Prog.wp_call_of ?_ (fun _ => ⟨_, rfl, .failed _ _⟩)
        (fun _ => ⟨_, rfl, .unregistered user message _⟩)
      cases hreg : (ca.newAccount user.key s.state.ca).1 with
      | error err => exact ⟨_, rfl, .unregistered user message _⟩
      | ok reg => exact ⟨_, rfl, .registered user message reg hreg⟩
  | resolve user =>
      unfold Opening.next
      rw [Prog.wp_bind, Prog.wp_attempt]
      refine Prog.wp_query_of ?_ ⟨_, rfl, .unresolved user⟩
      cases hreg : ca.existingAccount user.key s.state.ca with
      | error err => exact ⟨_, rfl, .unresolved user⟩
      | ok reg =>
          dsimp only
          split
          · exact ⟨_, rfl, .resolved user reg hreg⟩
          · exact ⟨_, rfl, .unresolved user⟩
  | openReg user text =>
      unfold Opening.next
      rw [Prog.wp_bind, Prog.wp_attempt]
      refine Prog.wp_mono (onDisk_sets _ [] o s) ?_
      rintro (err | _) t ⟨hwrites, hdone⟩
      · exact ⟨_, rfl, .regUnopened _ _ _ hwrites⟩
      · exact ⟨_, rfl, hdone rfl ▸ .regOpened user text⟩
  | writeReg user text =>
      unfold Opening.next
      rw [Prog.wp_bind, Prog.wp_attempt]
      refine Prog.wp_mono (onDisk_sets _ text o s) ?_
      rintro res t ⟨hwrites, -⟩
      cases res with
      | error err => exact ⟨_, rfl, .regWritten _ _ _ hwrites⟩
      | ok _ => exact ⟨_, rfl, .regWritten _ _ _ hwrites⟩

end Machine

/-! ## What the files and the calls say -/

/-- What the code relies on of `encoding/pem`, `crypto/x509` and
`encoding/json`: a key that was written is read back, an account that was
written names its URL or none, and an empty file is neither. -/
structure Formats.Lawful (env : Env) (formats : Formats) : Prop where
  keys : ∀ pk der, formats.marshalECPrivateKey pk = .ok der →
    ∃ rest, env.pemDecode (formats.pemEncode "EC PRIVATE KEY" der) =
      some (der, rest) ∧ formats.parseECPrivateKey der = .ok pk
  noKey : env.pemDecode [] = none
  accounts : ∀ reg data reg', formats.marshalAccount reg = .ok data →
    formats.unmarshalAccount data = some reg' →
      reg'.location = reg.location ∨ reg'.location.trimSpace = []
  notLegacy : ∀ reg data body uri, formats.marshalAccount reg = .ok data →
    formats.unmarshalLegacy data = some (body, uri) → uri.trimSpace = []
  noAccount : formats.unmarshalAccount [] = none

section Invariant

variable {σ : Type} (env : Env) (formats : Formats) (ca : Authority σ)
  (email : GoString) (staging : Bool)

/-- The key in the text of a key file. -/
def textKey (keyData : GoString) : Option GoString :=
  (env.pemDecode keyData).bind fun decoded =>
    (formats.parseECPrivateKey decoded.1).toOption

/-- The key in the key file. -/
def storedKey (w : World) : Option GoString :=
  (w.files (keyPath env email staging)).bind (textKey env formats)

/-- The registration names no account but that of the key. -/
def Agrees (c : σ) (key : GoString) (reg : Registration) : Prop :=
  reg.location.trimSpace ≠ [] → ca.accountURL c key = some reg.location

/-- The registration names the account of the key. -/
def Named (c : σ) (user : User) : Prop :=
  ∃ reg, user.registration = some reg ∧
    ca.accountURL c user.key = some reg.location

/-- A text for the account file. -/
def TextAgrees (c : σ) (key text : GoString) : Prop :=
  ∀ reg, readRegistration formats text = some reg → Agrees ca c key reg

/-- A user that was loaded. -/
structure Loaded (d : Desk σ) (user : User) : Prop where
  key : storedKey env formats email staging d.world = some user.key
  email : user.email = email
  agrees : ∀ reg, user.registration = some reg → Agrees ca d.ca user.key reg

/-- What is known of a call that stands here. -/
def Sound (d : Desk σ) : Opening → Prop
  | .readReg key => storedKey env formats email staging d.world = some key
  | .openKey pk text => storedKey env formats email staging d.world = none ∧
      textKey env formats text = some pk
  | .writeKey pk text => storedKey env formats email staging d.world = none ∧
      textKey env formats text = some pk
  | .connect user => Loaded env formats ca email staging d user
  | .register user _ => Loaded env formats ca email staging d user
  | .resolve user => Loaded env formats ca email staging d user
  | .openReg user text => Loaded env formats ca email staging d user ∧
      Named ca d.ca user ∧ TextAgrees formats ca d.ca user.key text
  | .writeReg user text => Loaded env formats ca email staging d user ∧
      Named ca d.ca user ∧ TextAgrees formats ca d.ca user.key text
  | .returned (.ok user) =>
      storedKey env formats email staging d.world = some user.key ∧
        Named ca d.ca user
  | _ => True

/-- The call is about to write a key. -/
def Opening.Generates : Opening → Prop
  | .openKey _ _ => True
  | .writeKey _ _ => True
  | _ => False

/-- The account file names no account but that of the key file. -/
def Consistent (d : Desk σ) : Prop :=
  ∀ data reg, d.world.files (regPath env email staging) = some data →
    readRegistration formats data = some reg → reg.location.trimSpace ≠ [] →
      ∃ key, storedKey env formats email staging d.world = some key ∧
        ca.accountURL d.ca key = some reg.location

/-- The invariant of guarded runs. -/
structure Inv (s : State σ) : Prop where
  sound : ∀ i, Sound env formats ca email staging s.desk (s.calls i)
  single : ∀ i j, Opening.Generates (s.calls i) →
    Opening.Generates (s.calls j) → i = j
  consistent : Consistent env formats ca email staging s.desk

/-- The accounts of the ACME server stay what they are. -/
def AccountsKept (c c' : σ) : Prop :=
  ∀ key url, ca.accountURL c key = some url → ca.accountURL c' key = some url

/-- What a run keeps: the accounts, and the key once there is one. -/
structure Lasts (s s' : State σ) : Prop where
  accounts : AccountsKept ca s.desk.ca s'.desk.ca
  key : ∀ key, storedKey env formats email staging s.desk.world = some key →
    storedKey env formats email staging s'.desk.world = some key

/-- No call finds the key file missing while another one is about to write
it. -/
def Guarded (s : State σ) : Label σ → Prop
  | .step i _ _ => s.calls i = .readKey →
      s.desk.world.files (keyPath env email staging) = none →
        ∀ j, ¬Opening.Generates (s.calls j)
  | .authority c => AccountsKept ca s.desk.ca c
  | _ => True

/-! ## Files and keys -/

section Files

variable {env formats email staging}

theorem keyPath_ne_regPath :
    keyPath env email staging ≠ regPath env email staging := by
  have hplain : GoPath.Plain accountKey ∧ GoPath.Plain accountJson :=
    ⟨⟨by decide, by decide, by decide, by decide⟩,
      ⟨by decide, by decide, by decide, by decide⟩⟩
  intro heq
  have hname := ((GoPath.join_inj (dir_clean email staging)
    (dir_clean email staging) hplain.1 hplain.2).mp heq).2
  exact absurd hname (by decide)

theorem storedKey_congr {w w' : World}
    (h : w'.files (keyPath env email staging) =
      w.files (keyPath env email staging)) :
    storedKey env formats email staging w' =
      storedKey env formats email staging w := by
  rw [storedKey, storedKey, h]

theorem storedKey_set (text : GoString) (w : World) :
    storedKey env formats email staging
        (setFile (keyPath env email staging) text w) =
      textKey env formats text := by
  have hfile : (setFile (keyPath env email staging) text w).files
      (keyPath env email staging) = some text := if_pos rfl
  rw [storedKey, hfile]
  rfl

theorem storedKey_setReg (text : GoString) (w : World) :
    storedKey env formats email staging
        (setFile (regPath env email staging) text w) =
      storedKey env formats email staging w :=
  storedKey_congr (if_neg keyPath_ne_regPath)

theorem storedKey_of_text {w : World} {data : GoString}
    (h : w.files (keyPath env email staging) = some data) :
    storedKey env formats email staging w = textKey env formats data := by
  rw [storedKey, h]
  rfl

theorem storedKey_none {w : World}
    (h : w.files (keyPath env email staging) = none) :
    storedKey env formats email staging w = none := by
  rw [storedKey, h]
  rfl

/-- The key whose file was read is the key of the file. -/
theorem keyRead_cases (env : Env) (formats : Formats) (data : GoString) :
    (∃ err, keyRead env formats data = .returned (.error err)) ∨
      ∃ key, keyRead env formats data = .readReg key ∧
        textKey env formats data = some key := by
  unfold keyRead textKey
  cases env.pemDecode data with
  | none => exact .inl ⟨_, rfl⟩
  | some decoded =>
      dsimp only [Option.bind_some]
      cases formats.parseECPrivateKey decoded.1 with
      | error err => exact .inl ⟨_, rfl⟩
      | ok key => exact .inr ⟨key, rfl, rfl⟩

variable (hformats : Formats.Lawful env formats)
include hformats

theorem textKey_nil : textKey env formats [] = none := by
  rw [textKey, hformats.noKey]
  rfl

/-- A key that is generated is the key of the text that is written. -/
theorem keyMissing_cases (pk : Except GoError GoString) :
    (∃ err, keyMissing { formats with generateKey := pk } =
        .returned (.error err)) ∨
      ∃ key text, keyMissing { formats with generateKey := pk } =
          .openKey key text ∧ textKey env formats text = some key := by
  unfold keyMissing
  cases pk with
  | error err => exact .inl ⟨_, rfl⟩
  | ok key =>
      dsimp only
      cases hder : formats.marshalECPrivateKey key with
      | error err => exact .inl ⟨_, rfl⟩
      | ok der =>
          obtain ⟨rest, hdecode, hparse⟩ := hformats.keys key der hder
          refine .inr ⟨key, _, rfl, ?_⟩
          rw [textKey, hdecode, Option.bind_some, hparse]
          rfl

/-- An account that is stored is the one that is read back, or none. -/
theorem textAgrees_marshal {c : σ} {key data : GoString} {reg : Registration}
    (hdata : formats.marshalAccount reg = .ok data)
    (hurl : ca.accountURL c key = some reg.location) :
    TextAgrees formats ca c key data := by
  intro reg' hread hname
  unfold readRegistration at hread
  obtain ⟨found, hfound, rfl⟩ := Option.map_eq_some_iff.mp hread
  split at hname
  · next hblank =>
    exfalso
    revert hname
    cases hlegacy : formats.unmarshalLegacy data with
    | none => exact fun hname => hname hblank
    | some p =>
        obtain ⟨body, uri⟩ := p
        have huri := hformats.notLegacy reg data body uri hdata hlegacy
        intro hname
        refine hname ?_
        show uri.trimSpace.trimSpace = []
        rw [huri]
        rfl
  · next hnamed =>
    rw [if_neg hnamed]
    rcases hformats.accounts reg data found hdata hfound with hsame | hblank
    · rw [hsame]
      exact hurl
    · exact absurd hblank hnamed

theorem readRegistration_nil : readRegistration formats [] = none := by
  rw [readRegistration, hformats.noAccount]
  rfl

end Files

/-! ## What a step keeps -/

section Steps

variable {env formats ca email staging}

theorem Agrees.mono {c c' : σ} {key : GoString} {reg : Registration}
    (h : Agrees ca c key reg) (hkept : AccountsKept ca c c') :
    Agrees ca c' key reg := fun hname => hkept _ _ (h hname)

theorem Named.mono {c c' : σ} {user : User} (h : Named ca c user)
    (hkept : AccountsKept ca c c') : Named ca c' user := by
  obtain ⟨reg, hreg, hurl⟩ := h
  exact ⟨reg, hreg, hkept _ _ hurl⟩

theorem Loaded.mono {d d' : Desk σ} {user : User}
    (h : Loaded env formats ca email staging d user)
    (hkey : storedKey env formats email staging d'.world =
      storedKey env formats email staging d.world)
    (hkept : AccountsKept ca d.ca d'.ca) :
    Loaded env formats ca email staging d' user :=
  ⟨hkey.trans h.key, h.email, fun reg hreg => (h.agrees reg hreg).mono hkept⟩

/-- What is known of a call does not depend on more than the key and the
accounts. -/
theorem Sound.mono {d d' : Desk σ}
    (hkey : storedKey env formats email staging d'.world =
      storedKey env formats email staging d.world)
    (hkept : AccountsKept ca d.ca d'.ca) :
    ∀ x, Sound env formats ca email staging d x →
      Sound env formats ca email staging d' x
  | .idle, _ => trivial
  | .mkdir, _ => trivial
  | .readKey, _ => trivial
  | .readReg _, h => hkey.trans h
  | .openKey _ _, h => ⟨hkey.trans h.1, h.2⟩
  | .writeKey _ _, h => ⟨hkey.trans h.1, h.2⟩
  | .connect _, h => Loaded.mono h hkey hkept
  | .register _ _, h => Loaded.mono h hkey hkept
  | .resolve _, h => Loaded.mono h hkey hkept
  | .openReg _ _, h => ⟨h.1.mono hkey hkept, h.2.1.mono hkept,
      fun reg hreg => (h.2.2 reg hreg).mono hkept⟩
  | .writeReg _ _, h => ⟨h.1.mono hkey hkept, h.2.1.mono hkept,
      fun reg hreg => (h.2.2 reg hreg).mono hkept⟩
  | .returned (.ok _), h => ⟨hkey.trans h.1, h.2.mono hkept⟩
  | .returned (.error _), _ => trivial

/-- Where no key is stored, only a call that generates one knows more than
nothing. -/
theorem Sound.of_none {d d' : Desk σ}
    (hnone : storedKey env formats email staging d.world = none) :
    ∀ x, ¬Opening.Generates x → Sound env formats ca email staging d x →
      Sound env formats ca email staging d' x := by
  have hno : ∀ key, storedKey env formats email staging d.world ≠ some key := by
    intro key hkey
    rw [hnone] at hkey
    cases hkey
  intro x hx h
  cases x with
  | idle => trivial
  | mkdir => trivial
  | readKey => trivial
  | readReg key => exact absurd h (hno key)
  | openKey pk text => exact absurd trivial hx
  | writeKey pk text => exact absurd trivial hx
  | connect user => exact absurd h.key (hno _)
  | register user message => exact absurd (Loaded.key h) (hno _)
  | resolve user => exact absurd (Loaded.key h) (hno _)
  | openReg user text => exact absurd h.1.key (hno _)
  | writeReg user text => exact absurd h.1.key (hno _)
  | returned r =>
      cases r with
      | error err => trivial
      | ok user => exact absurd h.1 (hno _)

theorem AccountsKept.refl (c : σ) : AccountsKept ca c c := fun _ _ => id

/-- The account file of a user that was loaded is the account file. -/
theorem regPath_of_email {user : User} (h : user.email = email) :
    accountFile env user.email staging accountJson =
      regPath env email staging := by
  rw [h]
  rfl

theorem connected_sound {d : Desk σ} {user : User}
    (h : Loaded env formats ca email staging d user) :
    Sound env formats ca email staging d (connected user) := by
  unfold connected
  cases hreg : user.registration with
  | none => exact h
  | some old =>
      dsimp only
      split
      · exact h
      · next hnamed => exact ⟨h.key, old, hreg, h.agrees old hreg hnamed⟩

variable (hformats : Formats.Lawful env formats) (hca : ca.Lawful)
include hformats

theorem answered_sound {d : Desk σ} {user : User} {reg : Registration}
    (hkey : storedKey env formats email staging d.world = some user.key)
    (hemail : user.email = email)
    (hurl : ca.accountURL d.ca user.key = some reg.location) :
    Sound env formats ca email staging d (answered formats user reg) := by
  have hnamed : Named ca d.ca { user with registration := some reg } :=
    ⟨reg, rfl, hurl⟩
  unfold answered
  cases hdata : formats.marshalAccount reg with
  | error err => exact ⟨hkey, hnamed⟩
  | ok data =>
      refine ⟨⟨hkey, hemail, fun reg' hreg' => ?_⟩, hnamed,
        textAgrees_marshal ca hformats hdata hurl⟩
      obtain rfl := Option.some.inj hreg'
      exact fun _ => hurl

include hca

/-- **What is known of a call** after its next statement. -/
theorem Moves.sound {d d' : Desk σ} {x y : Opening}
    (h : Moves env formats ca email staging d x y d')
    (hx : Sound env formats ca email staging d x)
    (hcons : Consistent env formats ca email staging d) :
    Sound env formats ca email staging d' y := by
  cases h with
  | rest _ _ => exact hx
  | failed _ err => trivial
  | mkdir => trivial
  | keyRead data hdata =>
      rcases keyRead_cases env formats data
        with ⟨err, hfailed⟩ | ⟨key, hread, htext⟩
      · rw [hfailed]
        trivial
      · rw [hread]
        exact (storedKey_of_text hdata).trans htext
  | keyMissing pk hnone =>
      rcases keyMissing_cases hformats pk
        with ⟨err, hfailed⟩ | ⟨key, text, hmissing, htext⟩
      · rw [hfailed]
        trivial
      · rw [hmissing]
        exact ⟨storedKey_none hnone, htext⟩
  | regRead key data hdata =>
      refine ⟨hx, rfl, fun reg hreg hname => ?_⟩
      obtain ⟨key', hkey', hurl⟩ := hcons data reg hdata hreg hname
      obtain rfl := Option.some.inj (hkey'.symm.trans hx)
      exact hurl
  | regMissing key => exact ⟨hx, rfl, nofun⟩
  | keyOpened pk text =>
      exact ⟨(storedKey_set [] _).trans (textKey_nil hformats), hx.2⟩
  | keyUnopened pk text err d' hwrites => trivial
  | keyWritten pk text =>
      exact ⟨(storedKey_set text _).trans hx.2, rfl, nofun⟩
  | keyUnwritten pk text err d' hwrites => trivial
  | connected user => exact connected_sound hx
  | registered user message reg hreg =>
      have hloaded : Loaded env formats ca email staging d user := hx
      refine answered_sound hformats ?_ hloaded.email
        (hca.registered _ _ reg hreg).2
      exact hloaded.key
  | unregistered user message err => trivial
  | resolved user reg hreg =>
      have hloaded : Loaded env formats ca email staging d user := hx
      exact answered_sound hformats hloaded.key hloaded.email
        (hca.existing _ _ reg hreg)
  | unresolved user => exact hx
  | regOpened user text =>
      rw [regPath_of_email hx.1.email]
      have hsame : Sound env formats ca email staging d (.writeReg user text) :=
        hx
      refine Sound.mono ?_ ?_ _ hsame
      · exact storedKey_setReg [] _
      · exact AccountsKept.refl _
  | regUnopened user text d' hwrites =>
      rw [regPath_of_email hx.1.email] at hwrites
      rcases hwrites with rfl | rfl
      · exact ⟨(storedKey_setReg [] _).trans hx.1.key, hx.2.1⟩
      · exact ⟨hx.1.key, hx.2.1⟩
  | regWritten user text d' hwrites =>
      rw [regPath_of_email hx.1.email] at hwrites
      rcases hwrites with rfl | rfl
      · exact ⟨(storedKey_setReg text _).trans hx.1.key, hx.2.1⟩
      · exact ⟨hx.1.key, hx.2.1⟩

omit hformats in
/-- The accounts stay, and so does the key file unless the call generates a
key. -/
theorem Moves.kept {d d' : Desk σ} {x y : Opening}
    (h : Moves env formats ca email staging d x y d')
    (hx : Sound env formats ca email staging d x) :
    AccountsKept ca d.ca d'.ca ∧ (¬Opening.Generates x →
      d'.world.files (keyPath env email staging) =
        d.world.files (keyPath env email staging)) := by
  cases h with
  | keyOpened pk text => exact ⟨AccountsKept.refl _, fun h => absurd trivial h⟩
  | keyUnopened pk text err d' hwrites =>
      rcases hwrites with rfl | rfl
      · exact ⟨AccountsKept.refl _, fun h => absurd trivial h⟩
      · exact ⟨AccountsKept.refl _, fun _ => rfl⟩
  | keyWritten pk text => exact ⟨AccountsKept.refl _, fun h => absurd trivial h⟩
  | keyUnwritten pk text err d' hwrites =>
      rcases hwrites with rfl | rfl
      · exact ⟨AccountsKept.refl _, fun h => absurd trivial h⟩
      · exact ⟨AccountsKept.refl _, fun _ => rfl⟩
  | registered user message reg hreg => exact ⟨hca.kept _ _, fun _ => rfl⟩
  | unregistered user message err => exact ⟨hca.kept _ _, fun _ => rfl⟩
  | regOpened user text =>
      rw [regPath_of_email hx.1.email]
      exact ⟨AccountsKept.refl _, fun _ => if_neg keyPath_ne_regPath⟩
  | regUnopened user text d' hwrites =>
      rw [regPath_of_email hx.1.email] at hwrites
      rcases hwrites with rfl | rfl
      · exact ⟨AccountsKept.refl _, fun _ => if_neg keyPath_ne_regPath⟩
      · exact ⟨AccountsKept.refl _, fun _ => rfl⟩
  | regWritten user text d' hwrites =>
      rw [regPath_of_email hx.1.email] at hwrites
      rcases hwrites with rfl | rfl
      · exact ⟨AccountsKept.refl _, fun _ => if_neg keyPath_ne_regPath⟩
      · exact ⟨AccountsKept.refl _, fun _ => rfl⟩
  | _ => exact ⟨AccountsKept.refl _, fun _ => rfl⟩

omit hformats hca in
/-- A call that is about to write a key has found none. -/
theorem Moves.generates {d d' : Desk σ} {x y : Opening}
    (h : Moves env formats ca email staging d x y d')
    (hy : Opening.Generates y) :
    Opening.Generates x ∨ x = .readKey ∧
      d.world.files (keyPath env email staging) = none := by
  cases h with
  | rest _ _ => exact .inl hy
  | keyMissing pk hnone => exact .inr ⟨rfl, hnone⟩
  | keyOpened pk text => exact .inl trivial
  | keyRead data hdata =>
      rcases keyRead_cases env formats data
        with ⟨err, hfailed⟩ | ⟨key, hread, -⟩
      · rw [hfailed] at hy
        exact hy.elim
      · rw [hread] at hy
        exact hy.elim
  | connected user =>
      unfold AccountClients.connected at hy
      split at hy
      · exact hy.elim
      · split at hy
        · exact hy.elim
        · exact hy.elim
  | registered user message reg hreg =>
      unfold answered at hy
      split at hy
      · exact hy.elim
      · exact hy.elim
  | resolved user reg hreg =>
      unfold answered at hy
      split at hy
      · exact hy.elim
      · exact hy.elim
  | _ => exact hy.elim

omit hformats hca in
theorem Consistent.mono {d d' : Desk σ}
    (h : Consistent env formats ca email staging d)
    (hfile : d'.world.files (regPath env email staging) =
      d.world.files (regPath env email staging))
    (hkey : storedKey env formats email staging d'.world =
      storedKey env formats email staging d.world)
    (hkept : AccountsKept ca d.ca d'.ca) :
    Consistent env formats ca email staging d' := by
  intro data reg hdata hreg hname
  obtain ⟨key, hstored, hurl⟩ := h data reg (hfile ▸ hdata) hreg hname
  exact ⟨key, hkey.trans hstored, hkept _ _ hurl⟩

omit hformats hca in
/-- Without a key the account file names no account, and the key file says
nothing of it. -/
theorem Consistent.setKey {d : Desk σ}
    (h : Consistent env formats ca email staging d)
    (hnone : storedKey env formats email staging d.world = none)
    (text : GoString) : Consistent env formats ca email staging
      { d with world := setFile (keyPath env email staging) text d.world } := by
  intro data reg hdata hreg hname
  have hfile : (setFile (keyPath env email staging) text d.world).files
      (regPath env email staging) =
        d.world.files (regPath env email staging) :=
    if_neg keyPath_ne_regPath.symm
  obtain ⟨key, hstored, -⟩ := h data reg (hfile.symm.trans hdata) hreg hname
  rw [hnone] at hstored
  cases hstored

omit hformats hca in
/-- A text that names the account of the key, or none. -/
theorem consistent_setReg {d : Desk σ} {key text : GoString}
    (hkey : storedKey env formats email staging d.world = some key)
    (htext : TextAgrees formats ca d.ca key text) :
    Consistent env formats ca email staging
      { d with world := setFile (regPath env email staging) text d.world } := by
  intro data reg hdata hreg hname
  have hfile : (setFile (regPath env email staging) text d.world).files
      (regPath env email staging) = some text := if_pos rfl
  obtain rfl := Option.some.inj (hfile.symm.trans hdata)
  exact ⟨key, (storedKey_setReg text _).trans hkey, htext reg hreg hname⟩

omit hca in
theorem textAgrees_nil (c : σ) (key : GoString) :
    TextAgrees formats ca c key [] := by
  intro reg hreg
  rw [readRegistration_nil hformats] at hreg
  cases hreg

/-- **What the account file names** is the account of the key. -/
theorem Moves.consistent {d d' : Desk σ} {x y : Opening}
    (h : Moves env formats ca email staging d x y d')
    (hx : Sound env formats ca email staging d x)
    (hcons : Consistent env formats ca email staging d) :
    Consistent env formats ca email staging d' := by
  cases h with
  | keyOpened pk text => exact hcons.setKey hx.1 []
  | keyUnopened pk text err d' hwrites =>
      rcases hwrites with rfl | rfl
      · exact hcons.setKey hx.1 []
      · exact hcons
  | keyWritten pk text => exact hcons.setKey hx.1 text
  | keyUnwritten pk text err d' hwrites =>
      rcases hwrites with rfl | rfl
      · exact hcons.setKey hx.1 text
      · exact hcons
  | registered user message reg hreg =>
      exact hcons.mono rfl rfl (hca.kept _ _)
  | unregistered user message err => exact hcons.mono rfl rfl (hca.kept _ _)
  | regOpened user text =>
      rw [regPath_of_email hx.1.email]
      exact consistent_setReg hx.1.key (textAgrees_nil hformats _ _)
  | regUnopened user text d' hwrites =>
      rw [regPath_of_email hx.1.email] at hwrites
      rcases hwrites with rfl | rfl
      · exact consistent_setReg hx.1.key (textAgrees_nil hformats _ _)
      · exact hcons
  | regWritten user text d' hwrites =>
      rw [regPath_of_email hx.1.email] at hwrites
      rcases hwrites with rfl | rfl
      · exact consistent_setReg hx.1.key hx.2.2
      · exact hcons
  | _ => exact hcons

omit hformats hca in
/-- Changes beside the two files and beside the account. -/
theorem Inv.elsewhere {s : State σ} (h : Inv env formats ca email staging s)
    {d : Desk σ}
    (hfile : ∀ p, p = keyPath env email staging ∨
      p = regPath env email staging → d.world.files p = s.desk.world.files p)
    (hkept : AccountsKept ca s.desk.ca d.ca) :
    Inv env formats ca email staging { s with desk := d } := by
  have hkey : storedKey env formats email staging d.world =
      storedKey env formats email staging s.desk.world :=
    storedKey_congr (hfile _ (.inl rfl))
  exact ⟨fun i => Sound.mono hkey hkept _ (h.sound i), h.single,
    h.consistent.mono (hfile _ (.inr rfl)) hkey hkept⟩

omit hformats hca in
theorem Inv.none_of_generates {s : State σ}
    (h : Inv env formats ca email staging s) {i : Nat}
    (hgen : Opening.Generates (s.calls i)) :
    storedKey env formats email staging s.desk.world = none := by
  have hi := h.sound i
  cases hx : s.calls i with
  | openKey pk text => rw [hx] at hi; exact hi.1
  | writeKey pk text => rw [hx] at hi; exact hi.1
  | _ => rw [hx] at hgen; exact hgen.elim

omit hformats in
/-- What is known of the other calls after a statement of one. -/
theorem Inv.others {s : State σ} (h : Inv env formats ca email staging s)
    {i : Nat} {y : Opening} {d : Desk σ}
    (hmoves : Moves env formats ca email staging s.desk (s.calls i) y d)
    {j : Nat} (hj : j ≠ i) : Sound env formats ca email staging d (s.calls j) := by
  obtain ⟨hkept, hkey⟩ := hmoves.kept hca (h.sound i)
  by_cases hgen : Opening.Generates (s.calls i)
  · exact Sound.of_none (h.none_of_generates hgen) _
      (fun hj' => hj (h.single j i hj' hgen)) (h.sound j)
  · exact Sound.mono (storedKey_congr (hkey hgen)) hkept _ (h.sound j)

omit hformats hca in
/-- A statement of a call in the machine. -/
theorem step_moves {s s' : State σ} {i : Nat} {pk : Except GoError GoString}
    {o : Oracle AcmeCall}
    (hstep : (clients env formats ca email staging).step s (.step i pk o) =
      some s') :
    ∃ y d, Moves env formats ca email staging s.desk (s.calls i) y d ∧
      s' = ⟨d, s.calls.set i y⟩ := by
  have hspec := next_moves env formats ca email staging pk o (s.calls i)
    ⟨s.desk, 0⟩
  simp only [clients] at hstep
  rcases hrun : (s.calls i).next env { formats with generateKey := pk } ca
    email staging o ⟨s.desk, 0⟩ with ⟨res, sys⟩
  rw [Prog.wp, hrun] at hspec
  rw [hrun] at hstep
  obtain ⟨y, rfl, hmoves⟩ := hspec
  exact ⟨y, sys.state, hmoves, (Option.some.inj hstep).symm⟩

/-- **A guarded step** keeps the invariant. -/
theorem inv_step {s s' : State σ} {a : Label σ}
    (h : Inv env formats ca email staging s)
    (hguard : Guarded env ca email staging s a)
    (hstep : (clients env formats ca email staging).step s a = some s') :
    Inv env formats ca email staging s' := by
  cases a with
  | begins i =>
      simp only [clients, Option.ite_none_right_eq_some,
        Option.some.injEq] at hstep
      obtain ⟨-, rfl⟩ := hstep
      refine ⟨(Pool.forall_set _ i _).mpr ⟨trivial, fun j _ => h.sound j⟩,
        ?_, h.consistent⟩
      intro j k hj hk
      have hold : ∀ j, Opening.Generates (s.calls.set i .mkdir j) →
          Opening.Generates (s.calls j) :=
        (Pool.forall_set (P := fun j x => Opening.Generates x →
          Opening.Generates (s.calls j)) _ i _).mpr ⟨False.elim, fun _ _ => id⟩
      exact h.single j k (hold j hj) (hold k hk)
  | step i pk o =>
      obtain ⟨y, d, hmoves, rfl⟩ := step_moves hstep
      refine ⟨(Pool.forall_set _ i _).mpr ⟨?_, fun j hj => ?_⟩, ?_, ?_⟩
      · exact hmoves.sound hformats hca (h.sound i) h.consistent
      · exact h.others hca hmoves hj
      · have hold : ∀ j, Opening.Generates (s.calls.set i y j) →
            Opening.Generates (s.calls j) ∨ j = i ∧
              ∀ k, ¬Opening.Generates (s.calls k) :=
          (Pool.forall_set (P := fun j x => Opening.Generates x →
            Opening.Generates (s.calls j) ∨ j = i ∧
              ∀ k, ¬Opening.Generates (s.calls k)) _ i _).mpr
            ⟨fun hy => (hmoves.generates hy).imp id fun hmissing =>
              ⟨rfl, hguard hmissing.1 hmissing.2⟩, fun _ _ => .inl⟩
        intro j k hj hk
        rcases hold j hj with hj' | ⟨hji, hnone⟩
        · rcases hold k hk with hk' | ⟨-, hnone⟩
          · exact h.single j k hj' hk'
          · exact absurd hj' (hnone j)
        · rcases hold k hk with hk' | ⟨hki, -⟩
          · exact absurd hk' (hnone k)
          · rw [hji, hki]
      · exact hmoves.consistent hformats hca (h.sound i) h.consistent
  | others w =>
      obtain rfl := Option.some.inj hstep
      exact h.elsewhere (fun p hp => if_pos hp) (AccountsKept.refl _)
  | authority c =>
      obtain rfl := Option.some.inj hstep
      exact h.elsewhere (fun _ _ => rfl) hguard
  | restart =>
      obtain rfl := Option.some.inj hstep
      exact ⟨fun _ => trivial, fun _ _ hj => hj.elim, h.consistent⟩

/-! ## Runs -/

omit hformats in
theorem lasts_step {s s' : State σ} {a : Label σ}
    (h : Inv env formats ca email staging s)
    (hguard : Guarded env ca email staging s a)
    (hstep : (clients env formats ca email staging).step s a = some s') :
    Lasts env formats ca email staging s s' := by
  cases a with
  | begins i =>
      simp only [clients, Option.ite_none_right_eq_some,
        Option.some.injEq] at hstep
      obtain ⟨-, rfl⟩ := hstep
      exact ⟨AccountsKept.refl _, fun _ => id⟩
  | step i pk o =>
      obtain ⟨y, d, hmoves, rfl⟩ := step_moves hstep
      obtain ⟨hkept, hkey⟩ := hmoves.kept hca (h.sound i)
      refine ⟨hkept, fun key hstored => ?_⟩
      by_cases hgen : Opening.Generates (s.calls i)
      · rw [h.none_of_generates hgen] at hstored
        cases hstored
      · exact (storedKey_congr (hkey hgen)).trans hstored
  | others w =>
      obtain rfl := Option.some.inj hstep
      exact ⟨AccountsKept.refl _, fun key hstored =>
        (storedKey_congr (if_pos (.inl rfl))).trans hstored⟩
  | authority c =>
      obtain rfl := Option.some.inj hstep
      exact ⟨hguard, fun _ => id⟩
  | restart =>
      obtain rfl := Option.some.inj hstep
      exact ⟨AccountsKept.refl _, fun _ => id⟩

end Steps

theorem Lasts.refl (s : State σ) : Lasts env formats ca email staging s s :=
  ⟨AccountsKept.refl _, fun _ => id⟩

theorem Lasts.trans {s₁ s₂ s₃ : State σ}
    (h : Lasts env formats ca email staging s₁ s₂)
    (h' : Lasts env formats ca email staging s₂ s₃) :
    Lasts env formats ca email staging s₁ s₃ :=
  ⟨fun _ _ hurl => h'.accounts _ _ (h.accounts _ _ hurl),
    fun _ hkey => h'.key _ (h.key _ hkey)⟩

/-- A guarded run from a state with the invariant. -/
theorem inv_run {env formats ca email staging}
    (hformats : Formats.Lawful env formats) (hca : ca.Lawful)
    {s s' : State σ} {as : List (Label σ)}
    (h : Inv env formats ca email staging s)
    (halong : (clients env formats ca email staging).Along
      (Guarded env ca email staging) s as)
    (hrun : (clients env formats ca email staging).run s as = some s') :
    Inv env formats ca email staging s' ∧
      Lasts env formats ca email staging s s' := by
  have hkeeps : ∀ t a t',
      (Inv env formats ca email staging t ∧
        Lasts env formats ca email staging s t) →
      Guarded env ca email staging t a →
      (clients env formats ca email staging).step t a = some t' →
      Inv env formats ca email staging t' ∧
        Lasts env formats ca email staging s t' := by
    intro t a t' ⟨ht, hlasts⟩ hguard hstep
    exact ⟨inv_step hformats hca ht hguard hstep,
      hlasts.trans _ _ _ _ _ (lasts_step hca ht hguard hstep)⟩
  exact Machine.invariant_along hkeeps as s s'
    ⟨h, Lasts.refl env formats ca email staging s⟩ halong hrun

/-- Once a key is stored, calls need no order. -/
theorem guarded_of_key {env formats ca email staging}
    (hformats : Formats.Lawful env formats) (hca : ca.Lawful)
    {key : GoString} :
    ∀ (as : List (Label σ)) (s : State σ), Inv env formats ca email staging s →
      storedKey env formats email staging s.desk.world = some key →
      (∀ a ∈ as, ∀ c, a ≠ .authority c) →
        (clients env formats ca email staging).Along
          (Guarded env ca email staging) s as := by
  intro as
  induction as with
  | nil => exact fun _ _ _ _ => trivial
  | cons a as ih =>
      intro s h hkey hcalm
      have hguard : Guarded env ca email staging s a := by
        cases a with
        | step i pk o =>
            intro _ hnone
            rw [storedKey_none hnone] at hkey
            cases hkey
        | authority c => exact absurd rfl (hcalm _ List.mem_cons_self c)
        | _ => trivial
      refine ⟨hguard, ?_⟩
      cases hstep : (clients env formats ca email staging).step s a with
      | none => trivial
      | some s' =>
          exact ih s' (inv_step hformats hca h hguard hstep)
            ((lasts_step hca h hguard hstep).key key hkey)
            fun a ha => hcalm a (List.mem_cons_of_mem _ ha)

/-- Calls that have only begun are in nobody's way. -/
theorem guarded_alone {env formats ca email staging} {i : Nat} :
    ∀ (as : List (Label σ)) (s : State σ),
      (∀ j, j ≠ i → ¬Opening.Generates (s.calls j)) →
      (∀ a ∈ as, (∃ j, a = .begins j) ∨ ∃ pk o, a = .step i pk o) →
        (clients env formats ca email staging).Along
          (Guarded env ca email staging) s as := by
  intro as
  induction as with
  | nil => exact fun _ _ _ => trivial
  | cons a as ih =>
      intro s hothers hlabels
      have hrest := fun b hb => hlabels b (List.mem_cons_of_mem a hb)
      rcases hlabels a List.mem_cons_self with ⟨j, rfl⟩ | ⟨pk, o, rfl⟩
      · refine ⟨trivial, ?_⟩
        cases hstep : (clients env formats ca email staging).step s
            (.begins j) with
        | none => trivial
        | some s' =>
            simp only [clients, Option.ite_none_right_eq_some,
              Option.some.injEq] at hstep
            obtain ⟨-, rfl⟩ := hstep
            refine ih _ ?_ hrest
            exact (Pool.forall_set (P := fun k x => k ≠ i →
              ¬Opening.Generates x) _ j _).mpr
                ⟨fun _ => id, fun k _ hk => hothers k hk⟩
      · refine ⟨fun hread _ j => ?_, ?_⟩
        · by_cases hj : j = i
          · rw [hj, hread]
            exact id
          · exact hothers j hj
        · cases hstep : (clients env formats ca email staging).step s
              (.step i pk o) with
          | none => trivial
          | some s' =>
              obtain ⟨y, d, -, rfl⟩ := step_moves hstep
              refine ih _ (fun j hj => ?_) hrest
              show ¬Opening.Generates (s.calls.set i y j)
              rw [Pool.set_ne _ _ hj]
              exact hothers j hj

theorem inv_of_idle {s : State σ} (hidle : ∀ i, s.calls i = .idle)
    (hfile : Consistent env formats ca email staging s.desk) :
    Inv env formats ca email staging s where
  sound i := by
    rw [hidle i]
    trivial
  single i j hi _ := by
    rw [hidle i] at hi
    exact hi.elim
  consistent := hfile

/-- **One account.**  Let any number of calls for one e-mail address run side
by side, fail at any statement, and be cut off by the end of the process, as
long as none of them finds the key file missing while another one is about to
write it.  Then any two clients they ever return sign with one key for one
account of the ACME server; this is the key in the key file, which no call
replaces any more, and the account file names no other account. -/
theorem clients_share_account (hformats : Formats.Lawful env formats)
    (hca : ca.Lawful) (s₀ s s' : State σ) (as bs : List (Label σ))
    (hidle : ∀ i, s₀.calls i = .idle)
    (hfile : Consistent env formats ca email staging s₀.desk)
    (halong : (clients env formats ca email staging).Along
      (Guarded env ca email staging) s₀ as)
    (hrun : (clients env formats ca email staging).run s₀ as = some s)
    (halong' : (clients env formats ca email staging).Along
      (Guarded env ca email staging) s bs)
    (hrun' : (clients env formats ca email staging).run s bs = some s')
    (i j : Nat) (user user' : User) (hi : s.calls i = .returned (.ok user))
    (hj : s'.calls j = .returned (.ok user')) :
    user'.key = user.key ∧
      user'.registration.map Registration.location =
        user.registration.map Registration.location ∧
      storedKey env formats email staging s'.desk.world = some user.key ∧
      Named ca s'.desk.ca user' ∧
      Consistent env formats ca email staging s'.desk := by
  have h₀ := inv_of_idle env formats ca email staging hidle hfile
  obtain ⟨h, -⟩ := inv_run hformats hca h₀ halong hrun
  obtain ⟨h', hlasts⟩ := inv_run hformats hca h halong' hrun'
  have hsound := h.sound i
  rw [hi] at hsound
  obtain ⟨hkey, reg, hreg, hurl⟩ := hsound
  have hsound' := h'.sound j
  rw [hj] at hsound'
  obtain ⟨hkey', hnamed⟩ := hsound'
  have hstored := hlasts.key _ hkey
  have hsame : user'.key = user.key :=
    Option.some.inj (hkey'.symm.trans hstored)
  refine ⟨hsame, ?_, hstored, hnamed, h'.consistent⟩
  obtain ⟨reg', hreg', hurl'⟩ := hnamed
  rw [hsame] at hurl'
  have hloc := (hlasts.accounts _ _ hurl).symm.trans hurl'
  rw [hreg, hreg', Option.map_some, Option.map_some, hloc]

/-! ## A key file without a key -/

section Stuck

/-- A call that has found no key so far. -/
def Opening.Keyless : Opening → Prop
  | .idle => True
  | .mkdir => True
  | .readKey => True
  | .returned (.error _) => True
  | _ => False

/-- The key file holds this text, and no call has found a key. -/
structure Stuck (data : GoString) (s : State σ) : Prop where
  file : s.desk.world.files (keyPath env email staging) = some data
  calls : ∀ i, Opening.Keyless (s.calls i)

/-- A key file that is about to be written is empty. -/
def Opened (s : State σ) : Prop :=
  ∀ i pk text, s.calls i = .writeKey pk text →
    s.desk.world.files (keyPath env email staging) = some []

variable {env formats ca email staging} {data : GoString} {s s' : State σ}

/-- A statement of a call that finds a text without a key. -/
theorem Moves.keyless {d d' : Desk σ} {x y : Opening}
    (h : Moves env formats ca email staging d x y d')
    (htext : textKey env formats data = none)
    (hfile : d.world.files (keyPath env email staging) = some data)
    (hx : Opening.Keyless x) : Opening.Keyless y ∧ d' = d := by
  cases h with
  | rest _ _ => exact ⟨hx, rfl⟩
  | failed _ err => exact ⟨trivial, rfl⟩
  | mkdir => exact ⟨trivial, rfl⟩
  | keyRead found hfound =>
      obtain rfl := Option.some.inj (hfile.symm.trans hfound)
      rcases keyRead_cases env formats data
        with ⟨err, hfailed⟩ | ⟨key, -, hkey⟩
      · rw [hfailed]
        exact ⟨trivial, rfl⟩
      · rw [htext] at hkey
        cases hkey
  | keyMissing pk hnone =>
      rw [hfile] at hnone
      cases hnone
  | _ => exact hx.elim

/-- **A key file without a key stays**, and no call gets through. -/
theorem stuck_step {a : Label σ} (htext : textKey env formats data = none)
    (h : Stuck env email staging data s)
    (hstep : (clients env formats ca email staging).step s a = some s') :
    Stuck env email staging data s' := by
  cases a with
  | begins i =>
      simp only [clients, Option.ite_none_right_eq_some,
        Option.some.injEq] at hstep
      obtain ⟨-, rfl⟩ := hstep
      exact ⟨h.file, (Pool.forall_set _ i _).mpr
        ⟨trivial, fun j _ => h.calls j⟩⟩
  | step i pk o =>
      obtain ⟨y, d, hmoves, rfl⟩ := step_moves hstep
      obtain ⟨hy, rfl⟩ := hmoves.keyless htext h.file (h.calls i)
      exact ⟨h.file, (Pool.forall_set _ i _).mpr ⟨hy, fun j _ => h.calls j⟩⟩
  | others w =>
      obtain rfl := Option.some.inj hstep
      exact ⟨(if_pos (.inl rfl)).trans h.file, h.calls⟩
  | authority c =>
      obtain rfl := Option.some.inj hstep
      exact ⟨h.file, h.calls⟩
  | restart =>
      obtain rfl := Option.some.inj hstep
      exact ⟨h.file, fun _ => trivial⟩

section Opened

variable (hformats : Formats.Lawful env formats)
include hformats

/-- A call that is about to write a key has just opened the file. -/
theorem Moves.opened {d d' : Desk σ} {x y : Opening} {pk text : GoString}
    (h : Moves env formats ca email staging d x y d')
    (hy : y = .writeKey pk text) :
    d'.world.files (keyPath env email staging) = some [] := by
  cases h with
  | keyOpened _ _ => exact if_pos rfl
  | rest _ hover =>
      rw [hy] at hover
      cases hover
  | keyRead found hfound =>
      rcases keyRead_cases env formats found
        with ⟨err, hfailed⟩ | ⟨key, hread, -⟩
      · rw [hfailed] at hy
        cases hy
      · rw [hread] at hy
        cases hy
  | keyMissing pk hnone =>
      rcases keyMissing_cases hformats pk
        with ⟨err, hfailed⟩ | ⟨key, text', hmissing, -⟩
      · rw [hfailed] at hy
        cases hy
      · rw [hmissing] at hy
        cases hy
  | connected user =>
      unfold AccountClients.connected at hy
      split at hy
      · cases hy
      · split at hy
        · cases hy
        · cases hy
  | registered user message reg hreg =>
      unfold answered at hy
      split at hy
      · cases hy
      · cases hy
  | resolved user reg hreg =>
      unfold answered at hy
      split at hy
      · cases hy
      · cases hy
  | _ => cases hy

theorem opened_step {a : Label σ} (hca : ca.Lawful)
    (h : Inv env formats ca email staging s) (hopened : Opened env email staging s)
    (hstep : (clients env formats ca email staging).step s a = some s') :
    Opened env email staging s' := by
  cases a with
  | begins i =>
      simp only [clients, Option.ite_none_right_eq_some,
        Option.some.injEq] at hstep
      obtain ⟨-, rfl⟩ := hstep
      refine (Pool.forall_set (P := fun _ x => ∀ pk text,
        x = Opening.writeKey pk text →
          s.desk.world.files (keyPath env email staging) = some []) _ i _).mpr
        ⟨fun _ _ hy => ?_, fun j _ => hopened j⟩
      cases hy
  | step i pk o =>
      obtain ⟨y, d, hmoves, rfl⟩ := step_moves hstep
      refine (Pool.forall_set (P := fun _ x => ∀ pk text,
        x = Opening.writeKey pk text →
          d.world.files (keyPath env email staging) = some []) _ i _).mpr
        ⟨fun _ _ hy => hmoves.opened hformats hy, fun j hj pk' text hx => ?_⟩
      -- only one call generates a key
      have hgen : ¬Opening.Generates (s.calls i) := fun hgen =>
        hj (h.single j i (by rw [hx]; trivial) hgen)
      show d.world.files (keyPath env email staging) = some []
      rw [(hmoves.kept hca (h.sound i)).2 hgen]
      exact hopened j pk' text hx
  | others w =>
      obtain rfl := Option.some.inj hstep
      exact fun j pk text hx => (if_pos (.inl rfl)).trans (hopened j pk text hx)
  | authority c =>
      obtain rfl := Option.some.inj hstep
      exact hopened
  | restart =>
      obtain rfl := Option.some.inj hstep
      intro i pk text hx
      cases hx

end Opened

end Stuck

/-! ## Calls that get through -/

section Recovery

variable (hanswers : ∀ key c, ∃ reg, (ca.newAccount key c).1 = .ok reg)
include hanswers

theorem registerAccount_quiet (user : User) (message : GoString)
    (s : Sys (Desk σ)) :
    (registerAccount env formats ca staging user message).wp .quiet s
      fun res _ => ∃ user', res = .ok user' := by
  obtain ⟨reg, hreg⟩ := hanswers user.key s.state.ca
  unfold registerAccount register
  rw [Prog.wp_bind, Prog.wp_mapError, Prog.wp_call_quiet, hreg]
  exact ⟨_, rfl⟩

/-- With a user and a server that answers, nothing is in the way. -/
theorem ensureRegistration_quiet (user : User) (s : Sys (Desk σ)) :
    (ensureRegistration env formats ca staging user).wp .quiet s
      fun res _ => ∃ user', res = .ok user' := by
  unfold ensureRegistration
  split
  · exact registerAccount_quiet _ _ _ _ hanswers _ _ s
  · split
    · rw [Prog.wp_bind, Prog.wp_attempt]
      unfold resolveAccountByKey
      rw [Prog.wp_query_quiet]
      dsimp only
      split
      · split
        · exact ⟨_, rfl⟩
        · exact registerAccount_quiet _ _ _ _ hanswers _ _ _
      · exact registerAccount_quiet _ _ _ _ hanswers _ _ _
    · exact ⟨_, rfl⟩

omit hanswers in
/-- An account is loaded from a key file with a key, and created without
one. -/
theorem loadOrCreateUser_quiet {pk der : GoString}
    (hpk : formats.generateKey = .ok pk)
    (hder : formats.marshalECPrivateKey pk = .ok der) (s : Sys (Desk σ)) :
    (onDisk (loadOrCreateUser env formats email staging)).wp .quiet s
      fun res _ => (∃ user, res = .ok user) ↔
        (s.state.world.files (keyPath env email staging) = none ∨
          (storedKey env formats email staging s.state.world).isSome) := by
  unfold onDisk loadOrCreateUser mkdirAll readFile
  rw [Prog.wp_within, Prog.wp_bind, Prog.wp_mapError]
  refine Prog.wp_call_quiet _ _ _ _ |>.mpr ?_
  dsimp only [Except.mapError]
  rw [Prog.wp_bind, Prog.wp_attempt]
  refine Prog.wp_query_quiet _ _ _ _ |>.mpr ?_
  cases hfile : s.state.world.files (keyPath env email staging) with
  | none =>
      rw [show s.state.world.files (accountFile env email staging accountKey) =
        none from hfile]
      dsimp only
      rw [if_neg (by decide)]
      unfold createUser writeFile openFile writeContent
      rw [hpk, Prog.wp_bind, Prog.wp_ofExcept]
      dsimp only [Except.mapError]
      rw [hder, Prog.wp_bind, Prog.wp_ofExcept]
      exact ⟨fun _ => .inl rfl, fun _ => ⟨_, rfl⟩⟩
  | some data =>
      rw [show s.state.world.files (accountFile env email staging accountKey) =
        some data from hfile]
      dsimp only
      rw [storedKey_of_text hfile]
      unfold loadUser textKey
      cases env.pemDecode data with
      | none => exact ⟨nofun, nofun⟩
      | some decoded =>
          dsimp only [Option.bind_some]
          cases formats.parseECPrivateKey decoded.1 with
          | error err => exact ⟨nofun, nofun⟩
          | ok key =>
              rw [Prog.wp_bind, Prog.wp_ofExcept]
              dsimp only [Except.mapError]
              unfold readFile
              rw [Prog.wp_bind, Prog.wp_attempt]
              refine Prog.wp_query_quiet _ _ _ _ |>.mpr ?_
              dsimp only
              split
              · exact ⟨fun _ => .inr rfl, fun _ => ⟨_, rfl⟩⟩
              · exact ⟨fun _ => .inr rfl, fun _ => ⟨_, rfl⟩⟩

/-- With a server that answers and no failure, a call returns a client if and
only if there is no key file or it holds a key. -/
theorem newACMEClient_quiet_iff (hemail : email.trimSpace ≠ [])
    {pk der : GoString} (hpk : formats.generateKey = .ok pk)
    (hder : formats.marshalECPrivateKey pk = .ok der) (s : Sys (Desk σ)) :
    (newACMEClient env formats ca email staging).wp .quiet s
        (fun res _ => ∃ user, res = .ok user) ↔
      s.state.world.files (keyPath env email staging) = none ∨
        (storedKey env formats email staging s.state.world).isSome := by
  show (newACMEClient env formats ca email staging).wp .quiet s fun res _ =>
    (∃ user, res = .ok user) ↔ _
  unfold newACMEClient
  rw [if_neg hemail, Prog.wp_bind, Prog.wp_mapError]
  refine Prog.wp_mono (loadOrCreateUser_quiet env formats email staging hpk hder
    s) ?_
  rintro (err | user) t hload
  · have hno : ¬∃ user, (Except.error err : Except GoError User) = .ok user :=
      nofun
    exact iff_of_false nofun fun h => hno (hload.mpr h)
  · have hfiles := hload.mp ⟨user, rfl⟩
    unfold newClient
    dsimp only [Except.mapError]
    rw [Prog.wp_bind, Prog.wp_mapError]
    refine Prog.wp_query_quiet _ _ _ _ |>.mpr ?_
    exact Prog.wp_mono (ensureRegistration_quiet env formats ca staging
      hanswers user _) fun _ _ hok => ⟨fun _ => hfiles, fun _ => hok⟩

end Recovery

/-- The next call returns a client, if nothing fails. -/
def GetsThrough (d : Desk σ) : Prop :=
  (newACMEClient env formats ca email staging).wp .quiet ⟨d, 0⟩ fun res _ =>
    ∃ user, res = .ok user

/-- The process ends here.  However it goes on then, the key file stays and no
call returns a client. -/
def Barred (s : State σ) : Prop :=
  ∀ bs s', (clients env formats ca email staging).run
      { s with calls := fun _ => .idle } bs = some s' →
    s'.desk.world.files (keyPath env email staging) =
      s.desk.world.files (keyPath env email staging) ∧
    ∀ i user, s'.calls i ≠ .returned (.ok user)

theorem barred_of_textKey {env formats ca email staging} {s : State σ}
    {data : GoString}
    (hfile : s.desk.world.files (keyPath env email staging) = some data)
    (htext : textKey env formats data = none) :
    Barred env formats ca email staging s := by
  intro bs s' hrun
  have hstuck : Stuck env email staging data s' := Machine.invariant
    (fun _ _ _ h hstep => stuck_step htext h hstep) bs
    { s with calls := fun _ => .idle } s' ⟨hfile, fun _ => trivial⟩ hrun
  refine ⟨hstuck.file.trans hfile.symm, fun i user hi => ?_⟩
  have hkeyless := hstuck.calls i
  rw [hi] at hkeyless
  exact hkeyless.elim

/-- **After which cuts a call gets through again.**  Let a guarded run of calls
for one e-mail address be cut off anywhere by the end of the process.  With a
server that answers and no failure, the next call returns a client if and only
if there is no key file or it holds a key; if not, no call of any run returns
one.  A call that is cut off while it writes the account file is made good by
the next one; one that is cut off while it writes the key file never is. -/
theorem account_recovers_iff (hformats : Formats.Lawful env formats)
    (hca : ca.Lawful)
    (hanswers : ∀ key c, ∃ reg, (ca.newAccount key c).1 = .ok reg)
    (hemail : email.trimSpace ≠ []) {pk der : GoString}
    (hpk : formats.generateKey = .ok pk)
    (hder : formats.marshalECPrivateKey pk = .ok der)
    (s₀ s : State σ) (as : List (Label σ)) (hidle : ∀ i, s₀.calls i = .idle)
    (hfile : Consistent env formats ca email staging s₀.desk)
    (halong : (clients env formats ca email staging).Along
      (Guarded env ca email staging) s₀ as)
    (hrun : (clients env formats ca email staging).run s₀ as = some s) :
    (GetsThrough env formats ca email staging s.desk ↔
      s.desk.world.files (keyPath env email staging) = none ∨
        (storedKey env formats email staging s.desk.world).isSome) ∧
    (¬GetsThrough env formats ca email staging s.desk →
      Barred env formats ca email staging s) ∧
    (∀ i user text, (s.calls i = .openReg user text ∨
        s.calls i = .writeReg user text) →
      GetsThrough env formats ca email staging s.desk) ∧
    ∀ i key text, s.calls i = .writeKey key text →
      s.desk.world.files (keyPath env email staging) = some [] ∧
        Barred env formats ca email staging s := by
  have hthrough := newACMEClient_quiet_iff env formats ca email staging
    hanswers hemail hpk hder ⟨s.desk, 0⟩
  have hkeeps : ∀ t a t', (Inv env formats ca email staging t ∧
        Opened env email staging t) →
      Guarded env ca email staging t a →
      (clients env formats ca email staging).step t a = some t' →
      Inv env formats ca email staging t' ∧ Opened env email staging t' :=
    fun _ _ _ h hguard hstep => ⟨inv_step hformats hca h.1 hguard hstep,
      opened_step hformats hca h.1 h.2 hstep⟩
  have hstart : Opened env email staging s₀ := by
    intro i _ _ hx
    rw [hidle i] at hx
    cases hx
  obtain ⟨hinv, hopened⟩ := Machine.invariant_along hkeeps as s₀ s
    ⟨inv_of_idle env formats ca email staging hidle hfile, hstart⟩ halong hrun
  refine ⟨hthrough, fun hnot => ?_, fun i user text hcut => ?_,
    fun i key text hcut => ?_⟩
  · obtain ⟨hthere, hnokey⟩ := not_or.mp (mt hthrough.mpr hnot)
    obtain ⟨data, hdata⟩ := Option.ne_none_iff_exists'.mp hthere
    apply barred_of_textKey hdata
    rw [← storedKey_of_text hdata]
    exact Option.not_isSome_iff_eq_none.mp hnokey
  · have hkey : storedKey env formats email staging s.desk.world =
        some user.key := by
      have hsound := hinv.sound i
      rcases hcut with hcut | hcut
      · rw [hcut] at hsound
        exact hsound.1.key
      · rw [hcut] at hsound
        exact hsound.1.key
    exact hthrough.mpr (.inr (by rw [hkey]; rfl))
  · have hempty := hopened i key text hcut
    exact ⟨hempty, barred_of_textKey hempty (textKey_nil hformats)⟩

end Invariant

/-! ## Two calls -/

/-- Files hold their content as it is. -/
private def plainEnv : Env :=
  { Env.sample with pemDecode := fun s => if s = [] then none else some (s, []) }

private def plain : Formats where
  generateKey := .ok "second"
  marshalECPrivateKey key := if key = [] then .error .driver else .ok key
  parseECPrivateKey := .ok
  pemEncode _ der := der
  marshalAccount reg := .ok reg.location
  unmarshalAccount data := if data = [] then none else some ⟨[], data⟩
  unmarshalLegacy _ := none

private theorem plain_lawful : Formats.Lawful plainEnv plain where
  keys := by
    intro pk der hder
    by_cases hpk : pk = []
    · simp [plain, hpk] at hder
    · simp only [plain, hpk, if_false] at hder
      obtain rfl := Except.ok.inj hder
      exact ⟨[], if_neg hpk, rfl⟩
  noKey := rfl
  accounts := by
    intro reg data reg' hdata hread
    obtain rfl := Except.ok.inj hdata
    by_cases hblank : reg.location = []
    · simp [plain, hblank] at hread
    · simp only [plain, hblank, if_false, Option.some.injEq] at hread
      obtain rfl := hread
      exact .inl rfl
  notLegacy := by
    intro reg data body uri _ hlegacy
    cases hlegacy
  noAccount := rfl

/-- The URL of the account of a key. -/
private def url (key : GoString) : GoString :=
  if key = lit "first" then "https://ca.example.org/acct/1"
  else "https://ca.example.org/acct/2"

/-- A server that knows these keys. -/
private def server : Authority (List GoString) where
  newAccount key keys := (.ok ⟨[], url key⟩, key :: keys)
  existingAccount key keys :=
    if key ∈ keys then .ok ⟨[], url key⟩ else .error .api
  accountURL keys key := if key ∈ keys then some (url key) else none

private theorem server_lawful : server.Lawful where
  registered := by
    intro key keys reg hreg
    obtain rfl := Except.ok.inj hreg
    refine ⟨?_, if_pos List.mem_cons_self⟩
    show (url key).trimSpace ≠ []
    unfold url
    split
    · decide
    · decide
  kept := by
    intro key keys k u hu
    by_cases hk : k ∈ keys
    · simp only [server, if_pos hk] at hu
      simp only [server, if_pos (List.mem_cons_of_mem key hk)]
      exact hu
    · simp [server, hk] at hu
  existing := by
    intro key keys reg hreg
    by_cases hk : key ∈ keys
    · simp only [server, if_pos hk] at hreg
      obtain rfl := Except.ok.inj hreg
      exact if_pos hk
    · simp [server, hk] at hreg

/-- The next statement of a call, which generates this key. -/
private def turn (i : Nat) (key : GoString) : Label (List GoString) :=
  .step i (.ok key) .quiet

private def running : Machine (State (List GoString)) (Label (List GoString)) :=
  clients plainEnv plain server "ops@example.org" false

/-- The state a run comes to. -/
private def after (s : State (List GoString))
    (as : List (Label (List GoString))) : State (List GoString) :=
  (running.run s as).getD s

private def ops : User :=
  ⟨"ops@example.org", some ⟨[], url "first"⟩, "first"⟩

/-- Nothing is stored and no call is under way. -/
private def fresh : State (List GoString) :=
  ⟨⟨World.init fun _ _ => none, []⟩, fun _ => .idle⟩

private theorem fresh_consistent :
    Consistent plainEnv plain server "ops@example.org" false fresh.desk := by
  intro data reg hdata
  cases hdata

/-- Two calls begin, and the first one creates the key. -/
private def creating : List (Label (List GoString)) :=
  [.begins 0, .begins 1] ++ List.replicate 4 (turn 0 "first")

/-- The second call finds the key, and both register it: the first returns
while the second is under way. -/
private def registering : List (Label (List GoString)) :=
  [turn 1 "second", turn 1 "second", turn 0 "first", turn 1 "second",
    turn 0 "first", turn 1 "second", turn 0 "first", turn 0 "first"]

/-- The second call goes on. -/
private def finishing : List (Label (List GoString)) :=
  List.replicate 3 (turn 1 "second")

private def created : State (List GoString) := after fresh creating

private def half : State (List GoString) := after created registering

private def done : State (List GoString) := after half finishing

private theorem turns_calm (as : List (Label (List GoString)))
    (h : ∀ a ∈ as, ∃ i key, a = turn i key) :
    ∀ a ∈ as, ∀ c, a ≠ .authority c := by
  intro a ha c hc
  obtain ⟨i, key, rfl⟩ := h a ha
  cases hc

theorem clients_share_account_created :
    half.calls 0 = .returned (.ok ops) ∧ done.calls 1 = .returned (.ok ops) ∧
      storedKey plainEnv plain "ops@example.org" false done.desk.world =
        some ops.key ∧
      Consistent plainEnv plain server "ops@example.org" false done.desk := by
  have hrun : running.run fresh creating = some created := rfl
  have hrun' : running.run created registering = some half := rfl
  have halong : running.Along (Guarded plainEnv server "ops@example.org" false)
      fresh creating := by
    refine guarded_alone (i := 0) creating fresh (fun _ _ => id) ?_
    simp [creating, turn]
  have hinv : Inv plainEnv plain server "ops@example.org" false created :=
    (inv_run plain_lawful server_lawful (inv_of_idle plainEnv plain server
      "ops@example.org" false (fun _ => rfl) fresh_consistent) halong hrun).1
  have hkey : storedKey plainEnv plain "ops@example.org" false
      created.desk.world = some (lit "first") := by decide
  have halong' : running.Along (Guarded plainEnv server "ops@example.org" false)
      created registering := by
    refine guarded_of_key plain_lawful server_lawful registering created hinv
      hkey (turns_calm _ ?_)
    simp [registering]
  obtain ⟨hinv', hlasts⟩ :=
    inv_run plain_lawful server_lawful hinv halong' hrun'
  have hfirst : half.calls 0 = .returned (.ok ops) := by decide
  have hsecond : done.calls 1 = .returned (.ok ops) := by decide
  obtain ⟨-, -, hstored, -, hfile⟩ := clients_share_account plainEnv plain server
    "ops@example.org" false plain_lawful server_lawful fresh half done
    (creating ++ registering) finishing (fun _ => rfl) fresh_consistent
    (running.along_append creating fresh created halong hrun halong')
    (running.run_append hrun hrun')
    (guarded_of_key plain_lawful server_lawful finishing half hinv'
      (hlasts.key _ hkey) (turns_calm _ (by simp [finishing]))) rfl 0 1 ops ops
    hfirst hsecond
  exact ⟨hfirst, hsecond, hstored, hfile⟩

/-- Cut off before the key is written. -/
private def cutKey : List (Label (List GoString)) :=
  .begins 0 :: List.replicate 3 (turn 0 "first")

/-- Cut off before the account is written. -/
private def cutAccount : List (Label (List GoString)) :=
  .begins 0 :: List.replicate 7 (turn 0 "first")

private theorem cut_guarded (n : Nat) :
    running.Along (Guarded plainEnv server "ops@example.org" false) fresh
      (.begins 0 :: List.replicate n (turn 0 "first")) := by
  refine guarded_alone (i := 0) _ fresh (fun _ _ => id) ?_
  simp [turn]

theorem account_recovers_iff_cut :
    Barred plainEnv plain server "ops@example.org" false (after fresh cutKey) ∧
      GetsThrough plainEnv plain server "ops@example.org" false
        (after fresh cutAccount).desk := by
  have hanswers : ∀ key c, ∃ reg, (server.newAccount key c).1 = .ok reg :=
    fun key c => ⟨⟨[], url key⟩, rfl⟩
  have hmarshal : plain.marshalECPrivateKey (lit "second") =
      .ok (lit "second") := rfl
  obtain ⟨-, -, -, hkey⟩ := account_recovers_iff plainEnv plain server
    "ops@example.org" false plain_lawful server_lawful hanswers (by decide) rfl
    hmarshal fresh (after fresh cutKey) cutKey (fun _ => rfl) fresh_consistent
    (cut_guarded 3) rfl
  obtain ⟨-, -, haccount, -⟩ := account_recovers_iff plainEnv plain server
    "ops@example.org" false plain_lawful server_lawful hanswers (by decide) rfl
    hmarshal fresh (after fresh cutAccount) cutAccount (fun _ => rfl)
    fresh_consistent (cut_guarded 7) rfl
  have hcutKey : (after fresh cutKey).calls 0 = .writeKey "first" "first" := by
    decide
  have hcutAccount : (after fresh cutAccount).calls 0 =
      .writeReg ops (url "first") := by decide
  exact ⟨(hkey 0 _ _ hcutKey).2, haccount 0 _ _ (.inr hcutAccount)⟩

/-- Both calls look for the key before one of them writes it; the account of
the first key is written last. -/
private def race : List (Label (List GoString)) :=
  [.begins 0, .begins 1, turn 0 "first", turn 1 "second", turn 0 "first",
    turn 1 "second", turn 0 "first", turn 0 "first", turn 1 "second",
    turn 1 "second", turn 1 "second", turn 1 "second", turn 1 "second",
    turn 1 "second", turn 0 "first", turn 0 "first", turn 0 "first",
    turn 0 "first"]

/-- Without the guard, the key file can hold one key and the account file name
the account of another. -/
theorem racing_calls_part_account :
    (running.run fresh race).map (fun s =>
      (s.desk.world.files (keyPath plainEnv "ops@example.org" false),
        s.desk.world.files (regPath plainEnv "ops@example.org" false))) =
      some (some (lit "second"), some (url "first")) := by
  decide

end Hdns.Ports.AccountRuns

import Hdns.Ports.EncryptionKey
import Hdns.Verified.Machine

/-!
# The encryption key across restarts

A deployment is a data directory and a database that outlive the program.  The
program is started, killed at any statement of a start or between two calls, and
started again; while it serves it saves records and tasks, whose secrets it
encrypts with the key it has loaded.  A call that is cut short is one whose later
statements fail.

## Main results

* `secrets_survive_restarts` — every key that is loaded is the first one, and
  every stored secret can be read with it.
* `starts_again_iff` — after a start that has come to its end the program can be
  brought up again if and only if the key file is missing or whole.
* `torn_key_file_stops_starts` — a kill between the two statements that write the
  file leaves neither.
-/

namespace Hdns.Ports.KeyRestarts

open Hdns.Verified
open Hdns.Verified.GoString
open Hdns.Ports.Schema
open Hdns.Ports.Records
open Hdns.Ports.Certificates
open Hdns.Ports.TaskEdits
open Hdns.Ports.Secrets
open Hdns.Ports.EncryptionKey

/-! ## The machine -/

/-- What the program leaves behind, and where it stands. -/
structure State where
  world : World
  boot : Boot

/-- A new data directory and a fresh database. -/
def start (zones : Zones) : State := ⟨World.init zones, .down⟩

/-- A label: the program is started, carries out the next statement of a start,
is killed, or serves a call; `others` is what anything else does to the database
and the files. -/
inductive Label where
  | start
  | statement (o : Oracle Call) (random : Except GoError GoString)
  | kill
  | record (env : Env) (o : Oracle Call) (input : RecordInput)
  | task (env : Env) (o : Oracle Call) (input : TaskInput)
  | others (w : World)

/-- The configuration of a program that has loaded the key. -/
def withKey (env : Env) (key : GoString) : Env :=
  { env with encryptionKey := key }

/-- The machine of a deployment. -/
def deployment (env : Env) (lib : Library) : Machine State Label where
  step s
    | .start =>
        match s.boot with
        | .down | .failed _ => some { s with boot := .read }
        | _ => none
    | .statement o random =>
        match s.boot.next env random o ⟨s.world, 0⟩ with
        | (.ok b, t) => some ⟨t.state, b⟩
        | (.error _, _) => none
    | .kill => some { s with boot := .down }
    | .record env o input =>
        match s.boot with
        | .up key => some { s with
            world := (upsertRecord (withKey env key) input o
              ⟨s.world, 0⟩).2.state }
        | _ => none
    | .task env o input =>
        match s.boot with
        | .up key => some { s with
            world := (upsertTask (withKey env key) lib input o
              ⟨s.world, 0⟩).2.state }
        | _ => none
    | .others w => some { s with world := w }

/-- The cipher of a program is that of the deployment, for every key. -/
structure SharesCipher (env env' : Env) : Prop where
  decrypt : env'.decrypt = env.decrypt
  lawful : ∀ key, key.length = keySize → LawfulCipher (withKey env' key)

/-- `GetRandomBytes` returns as many bytes as it is asked for.  What is not
modelled leaves the key file alone and stores no secret. -/
def Proper (env : Env) (s : State) : Label → Prop
  | .statement _ random => ∀ key, random = .ok key → key.length = keySize
  | .record env' _ _ => SharesCipher env env'
  | .task env' _ _ => SharesCipher env env'
  | .others w =>
      w.files (keyPath env) = s.world.files (keyPath env) ∧
        (∀ id e, tokens w id = some e → tokens s.world id = some e) ∧
        ∀ id h, headers w id = some h → headers s.world id = some h
  | _ => True

/-! ## What a step does -/

section Steps

variable {env : Env} {lib : Library} {s s' : State}

theorem statement_step {o : Oracle Call} {random : Except GoError GoString}
    (h : (deployment env lib).step s (.statement o random) = some s') :
    Advances env random s.world s.boot s'.boot s'.world := by
  obtain ⟨b, hb, hadvances⟩ := s.boot.next_advances env random o ⟨s.world, 0⟩
  simp only [deployment] at h
  split at h
  · next b' t hrun =>
    rw [hrun] at hb hadvances
    obtain rfl := Except.ok.inj hb
    obtain rfl := Option.some.inj h
    exact hadvances
  · cases h

/-- A program that serves a call goes on serving. -/
theorem record_step {env' : Env} {o : Oracle Call} {input : RecordInput}
    (h : (deployment env lib).step s (.record env' o input) = some s') :
    ∃ key, s.boot = .up key ∧ s'.boot = .up key ∧
      Leaves (withKey env' key) lib s.world s'.world := by
  simp only [deployment] at h
  split at h
  · next key hup =>
    obtain rfl := Option.some.inj h
    exact ⟨key, hup, hup, upsertRecord_leaves ⟨s.world, 0⟩⟩
  · cases h

theorem task_step {env' : Env} {o : Oracle Call} {input : TaskInput}
    (h : (deployment env lib).step s (.task env' o input) = some s') :
    ∃ key, s.boot = .up key ∧ s'.boot = .up key ∧
      Leaves (withKey env' key) lib s.world s'.world := by
  simp only [deployment] at h
  split at h
  · next key hup =>
    obtain rfl := Option.some.inj h
    exact ⟨key, hup, hup, upsertTask_leaves ⟨s.world, 0⟩⟩
  · cases h

end Steps

/-! ## What is kept -/

section Invariant

variable (env : Env) (lib : Library)

/-- Every stored secret can be read with the key. -/
structure Readable (key : GoString) (w : World) : Prop where
  tokens : ∀ id e, tokens w id = some e → ∃ v, env.decrypt key e = .ok v
  headers : ∀ id h, headers w id = some h →
    ∃ hs, decodeHeaders (withKey env key) lib h = .ok hs

/-- No program has served yet: nothing is stored, and the key of a start that is
in progress has the right size. -/
structure Unused (s : State) : Prop where
  tokens : ∀ id, tokens s.world id = none
  headers : ∀ id, headers s.world id = none
  boot : match s.boot with
    | .mkdir key | .openKey key | .writeKey key => key.length = keySize
    | .up _ => False
    | _ => True

/-- The key is the one of the file, and of the program if it serves; no start
makes a new one. -/
structure Keyed (key : GoString) (s : State) : Prop where
  size : key.length = keySize
  file : s.world.files (keyPath env) = some key
  readable : Readable env lib key s.world
  boot : match s.boot with
    | .up k => k = key
    | .mkdir _ | .openKey _ | .writeKey _ => False
    | _ => True

variable {env lib}

/-- Headers that are accepted can be parsed. -/
theorem headersOf_ok {text : GoString} {h : NullString}
    (haccepted : encryptHeaders env lib text = .ok h) :
    ∃ hs, headersOf lib text = .ok hs := by
  unfold encryptHeaders at haccepted
  unfold headersOf
  by_cases hblank : text.trimSpace = []
  · exact ⟨Headers.empty, if_pos hblank⟩
  · rw [if_neg hblank] at haccepted ⊢
    cases hparsed : lib.unmarshal text.trimSpace with
    | error err =>
        rw [hparsed] at haccepted
        cases haccepted
    | ok hs => exact ⟨hs, rfl⟩

theorem readable_of_unused {s : State} (h : Unused s) (key : GoString) :
    Readable env lib key s.world where
  tokens := by
    intro id e he
    rw [h.tokens id] at he
    cases he
  headers := by
    intro id b hb
    rw [h.headers id] at hb
    cases hb

theorem Readable.leaves {env' : Env} {key : GoString} {w w' : World}
    (h : Readable env lib key w) (hshares : SharesCipher env env')
    (hsize : key.length = keySize)
    (hleaves : Leaves (withKey env' key) lib w w') :
    Readable env lib key w' where
  tokens := by
    intro id e he
    rcases hleaves.tokens id e he with hold | ⟨text, hnew⟩
    · exact h.tokens id e hold
    · refine ⟨text, ?_⟩
      rw [← hshares.decrypt]
      exact (hshares.lawful key hsize).undoes text e hnew
  headers := by
    intro id b hb
    rcases hleaves.headers id b hb with hold | ⟨text, hnew⟩
    · exact h.headers id b hold
    · have hsame : decodeHeaders (withKey env key) lib b =
          decodeHeaders (withKey env' key) lib b := by
        rw [decodeHeaders, decodeHeaders, show (withKey env' key).decrypt =
          (withKey env key).decrypt from hshares.decrypt]
        rfl
      rw [hsame, decodeHeaders_encryptHeaders (hshares.lawful key hsize) hnew]
      exact headersOf_ok hnew

theorem unused_start (zones : Zones) : Unused (start zones) :=
  ⟨fun _ => rfl, fun _ => rfl, trivial⟩

/-! ### A start -/

/-- The key file stays, or is written by this very start. -/
theorem setFile_key {w : World} (text : GoString) :
    (setFile (keyPath env) text w).files (keyPath env) = some text := if_pos rfl

/-- A statement before anything was stored. -/
theorem Advances.unused {random : Except GoError GoString} {s : State}
    {b' : Boot} {w' : World}
    (hadvances : Advances env random s.world s.boot b' w') (h : Unused s)
    (hrandom : ∀ key, random = .ok key → key.length = keySize) :
    Unused ⟨w', b'⟩ ∨ ∃ key, Keyed env lib key ⟨w', b'⟩ := by
  obtain ⟨w, b⟩ := s
  obtain ⟨htokens, hheaders, hboot⟩ := h
  cases hadvances with
  | rest _ _ => exact .inl ⟨htokens, hheaders, hboot⟩
  | failed _ err => exact .inl ⟨htokens, hheaders, trivial⟩
  | loaded key hfile hsize =>
      refine .inr ⟨key, hsize, hfile, ?_, rfl⟩
      exact readable_of_unused ⟨htokens, hheaders, hboot⟩ key
  | missing key hkey _ => exact .inl ⟨htokens, hheaders, hrandom key hkey⟩
  | made key => exact .inl ⟨htokens, hheaders, hboot⟩
  | opened key => exact .inl ⟨htokens, hheaders, hboot⟩
  | unopened key err => exact .inl ⟨htokens, hheaders, trivial⟩
  | written key =>
      refine .inr ⟨key, hboot, setFile_key key, ?_, rfl⟩
      exact readable_of_unused
        (s := ⟨setFile (keyPath env) key w, .down⟩)
        ⟨htokens, hheaders, trivial⟩ key
  | unwritten key err => exact .inl ⟨htokens, hheaders, trivial⟩

/-- A statement afterwards: the key is read again. -/
theorem Advances.keyed {random : Except GoError GoString} {s : State}
    {b' : Boot} {w' : World} {key : GoString}
    (hadvances : Advances env random s.world s.boot b' w')
    (h : Keyed env lib key s) : Keyed env lib key ⟨w', b'⟩ := by
  obtain ⟨w, b⟩ := s
  obtain ⟨hsize, hfile, hreadable, hboot⟩ := h
  cases hadvances with
  | rest _ _ => exact ⟨hsize, hfile, hreadable, hboot⟩
  | failed _ err => exact ⟨hsize, hfile, hreadable, trivial⟩
  | loaded key' hfile' _ =>
      exact ⟨hsize, hfile, hreadable,
        Option.some.inj (hfile'.symm.trans hfile)⟩
  | missing key' _ hnone => rw [hfile] at hnone; cases hnone
  | made key' => exact hboot.elim
  | opened key' => exact hboot.elim
  | unopened key' err => exact hboot.elim
  | written key' => exact hboot.elim
  | unwritten key' err => exact hboot.elim

/-! ### Steps -/

/-- A call that was served. -/
theorem Keyed.served {env' : Env} {key k : GoString} {s s' : State}
    (h : Keyed env lib key s) (hshares : SharesCipher env env')
    (hup : s.boot = .up k) (hup' : s'.boot = .up k)
    (hleaves : Leaves (withKey env' k) lib s.world s'.world) :
    Keyed env lib key s' := by
  have hboot := h.boot
  rw [hup] at hboot
  obtain rfl : k = key := hboot
  refine ⟨h.size, ?_, h.readable.leaves hshares h.size hleaves, ?_⟩
  · rw [hleaves.files]
    exact h.file
  · rw [hup']

/-- **Step lemma**, once a key is stored. -/
theorem keyed_step {key : GoString} (s : State) (a : Label) (s' : State)
    (h : Keyed env lib key s) (hproper : Proper env s a)
    (hstep : (deployment env lib).step s a = some s') :
    Keyed env lib key s' := by
  cases a with
  | start =>
      simp only [deployment] at hstep
      split at hstep
      · obtain rfl := Option.some.inj hstep
        exact ⟨h.size, h.file, h.readable, trivial⟩
      · obtain rfl := Option.some.inj hstep
        exact ⟨h.size, h.file, h.readable, trivial⟩
      · cases hstep
  | statement o random =>
      exact Advances.keyed (statement_step hstep) h
  | kill =>
      obtain rfl := Option.some.inj hstep
      exact ⟨h.size, h.file, h.readable, trivial⟩
  | record env' o input =>
      obtain ⟨k, hup, hup', hleaves⟩ := record_step hstep
      exact h.served hproper hup hup' hleaves
  | task env' o input =>
      obtain ⟨k, hup, hup', hleaves⟩ := task_step hstep
      exact h.served hproper hup hup' hleaves
  | others w =>
      obtain rfl := Option.some.inj hstep
      obtain ⟨hfile, htokens, hheaders⟩ := hproper
      refine ⟨h.size, hfile.trans h.file, ⟨?_, ?_⟩, h.boot⟩
      · exact fun id e he => h.readable.tokens id e (htokens id e he)
      · exact fun id b hb => h.readable.headers id b (hheaders id b hb)

/-- **Step lemma**, before. -/
theorem unused_step (s : State) (a : Label) (s' : State) (h : Unused s)
    (hproper : Proper env s a)
    (hstep : (deployment env lib).step s a = some s') :
    Unused s' ∨ ∃ key, Keyed env lib key s' := by
  -- no call is served
  have hdown : ∀ key, s.boot ≠ .up key := by
    intro key hup
    have hboot := h.boot
    rw [hup] at hboot
    exact hboot
  cases a with
  | start =>
      simp only [deployment] at hstep
      split at hstep
      · obtain rfl := Option.some.inj hstep
        exact .inl ⟨h.tokens, h.headers, trivial⟩
      · obtain rfl := Option.some.inj hstep
        exact .inl ⟨h.tokens, h.headers, trivial⟩
      · cases hstep
  | statement o random =>
      exact Advances.unused (statement_step hstep) h hproper
  | kill =>
      obtain rfl := Option.some.inj hstep
      exact .inl ⟨h.tokens, h.headers, trivial⟩
  | record env' o input =>
      obtain ⟨k, hup, -, -⟩ := record_step hstep
      exact absurd hup (hdown k)
  | task env' o input =>
      obtain ⟨k, hup, -, -⟩ := task_step hstep
      exact absurd hup (hdown k)
  | others w =>
      obtain rfl := Option.some.inj hstep
      obtain ⟨-, htokens, hheaders⟩ := hproper
      refine .inl ⟨fun id => ?_, fun id => ?_, h.boot⟩
      · refine Option.eq_none_iff_forall_ne_some.mpr fun e he => ?_
        exact absurd ((h.tokens id).symm.trans (htokens id e he)) (by simp)
      · refine Option.eq_none_iff_forall_ne_some.mpr fun b hb => ?_
        exact absurd ((h.headers id).symm.trans (hheaders id b hb)) (by simp)

end Invariant

/-! ## Runs -/

section Runs

variable {env : Env} {lib : Library}

/-- Once a key is stored, it stays. -/
theorem keyed_run {key : GoString} {s s' : State} {as : List Label}
    (h : Keyed env lib key s)
    (hproper : (deployment env lib).Along (Proper env) s as)
    (hrun : (deployment env lib).run s as = some s') :
    Keyed env lib key s' :=
  Machine.invariant_along keyed_step as s s' h hproper hrun

/-- A run of a new deployment. -/
theorem run_cases {zones : Zones} {s : State} {as : List Label}
    (hproper : (deployment env lib).Along (Proper env) (start zones) as)
    (hrun : (deployment env lib).run (start zones) as = some s) :
    Unused s ∨ ∃ key, Keyed env lib key s := by
  have hstep : ∀ s a s', (Unused s ∨ ∃ key, Keyed env lib key s) →
      Proper env s a → (deployment env lib).step s a = some s' →
      (Unused s' ∨ ∃ key, Keyed env lib key s') := by
    rintro s a s' (hunused | ⟨key, hkeyed⟩) hcond hnext
    · exact unused_step s a s' hunused hcond hnext
    · exact .inr ⟨key, keyed_step s a s' hkeyed hcond hnext⟩
  exact Machine.invariant_along hstep as _ s (.inl (unused_start zones))
    hproper hrun

end Runs

/-- **Secrets survive restarts.**  Whatever fails and whenever the program is
killed, two programs that serve one after the other have loaded the same key, and
everything stored can be read with it. -/
theorem secrets_survive_restarts (env : Env) (lib : Library) (zones : Zones)
    (as bs : List Label) (s s' : State) (key key' : GoString)
    (hrun : (deployment env lib).run (start zones) as = some s)
    (hup : s.boot = .up key)
    (hlater : (deployment env lib).run s bs = some s')
    (hup' : s'.boot = .up key')
    (hproper : (deployment env lib).Along (Proper env) (start zones) as)
    (hproper' : (deployment env lib).Along (Proper env) s bs) :
    key' = key ∧ key.length = keySize ∧ Readable env lib key s'.world := by
  rcases run_cases hproper hrun with hunused | ⟨k, hkeyed⟩
  · have hboot := hunused.boot
    rw [hup] at hboot
    exact hboot.elim
  · have hboot := hkeyed.boot
    rw [hup] at hboot
    obtain rfl : key = k := hboot
    have hkeyed' := keyed_run hkeyed hproper' hlater
    have hboot' := hkeyed'.boot
    rw [hup'] at hboot'
    exact ⟨hboot', hkeyed.size, hkeyed'.readable⟩

/-- A cipher that marks what it has encrypted. -/
private def marking : Env :=
  { Env.sample with
    encrypt := fun _ text => .ok (0x2A :: text)
    decrypt := fun _ text => .ok text.tail }

private def someHeaders : GoString := "\x7b\"a\":\"b\"\x7d"

private def library : Library := ⟨id, id, fun _ => .ok Headers.empty⟩

private theorem sharesCipher_marking : SharesCipher marking marking where
  decrypt := rfl
  lawful := fun _ _ =>
    { undoes := by
        intro text stored h
        obtain rfl := Except.ok.inj h
        rfl
      nonempty := fun _ h => by cases h }

/-- A key of zeros. -/
def zeroKey : GoString := List.replicate keySize 0

/-- A statement that nothing fails. -/
def undisturbed : Label := .statement .quiet (.ok zeroKey)

theorem proper_undisturbed {env : Env} (s : State) :
    Proper env s undisturbed := by
  intro key hkey
  obtain rfl := Except.ok.inj hkey
  exact List.length_replicate

/-- The first start makes a key; a record is saved. -/
private def firstLife : List Label :=
  [.start, undisturbed, undisturbed, undisturbed, undisturbed,
    .record marking .quiet
      ⟨0, "one", 7, "example.org", "www", 60, 2, false, []⟩]

/-- The program is killed, and started twice: the first time the file cannot be
read.  Then a task is saved. -/
private def secondLife : List Label :=
  [.kill, .start, .statement (fun _ _ => .fails) (.ok zeroKey), .start,
    .statement .quiet (.ok (List.replicate keySize 1)),
    .task marking .quiet
      ⟨0, 1, "notify", 1, [], "https://example.org", someHeaders, [], true,
        false, []⟩]

private theorem proper_firstLife :
    (deployment marking library).Along (Proper marking)
      (start fun _ _ => none) firstLife := by
  refine Machine.along_of_mem _ _ _ ?_
  simp only [firstLife, List.forall_mem_cons]
  exact ⟨fun _ => trivial, proper_undisturbed, proper_undisturbed,
    proper_undisturbed, proper_undisturbed, fun _ => sharesCipher_marking,
    List.forall_mem_nil _⟩

private theorem proper_secondLife (s : State) :
    (deployment marking library).Along (Proper marking) s secondLife := by
  have hrandom : ∀ (n : UInt8) (t : State) (o : Oracle Call),
      Proper marking t (.statement o (.ok (List.replicate keySize n))) := by
    intro n t o key hkey
    obtain rfl := Except.ok.inj hkey
    exact List.length_replicate
  refine Machine.along_of_mem _ _ _ ?_
  simp only [secondLife, List.forall_mem_cons]
  exact ⟨fun _ => trivial, fun _ => trivial, fun t => hrandom 0 t _,
    fun _ => trivial, fun t => hrandom 1 t _, fun _ => sharesCipher_marking,
    List.forall_mem_nil _⟩

theorem secrets_survive_restarts_killed :
    ∃ s s', (deployment marking library).run (start fun _ _ => none)
        firstLife = some s ∧
      (deployment marking library).run s secondLife = some s' ∧
      tokens s'.world 1 = some "*one" ∧
      Readable marking library zeroKey s'.world := by
  refine ⟨_, _, rfl, rfl, rfl, ?_⟩
  exact (secrets_survive_restarts marking library _ firstLife secondLife _ _
    zeroKey zeroKey rfl rfl rfl rfl proper_firstLife
    (proper_secondLife _)).2.2

/-! ## Starting again -/

section Again

variable {env : Env} {lib : Library}

/-- The key file, if there is one, holds a key. -/
def Whole (env : Env) (w : World) : Prop :=
  ∀ data, w.files (keyPath env) = some data → data.length = keySize

/-- The program is not running. -/
def Stopped : Boot → Prop
  | .down | .failed _ => True
  | _ => False

/-- The file holds no key, and no start gets past it. -/
structure Stuck (env : Env) (data : GoString) (s : State) : Prop where
  file : s.world.files (keyPath env) = some data
  boot : Stopped s.boot ∨ s.boot = .read

theorem Stuck.not_up {data : GoString} {s : State} (h : Stuck env data s)
    (key : GoString) : s.boot ≠ .up key := by
  intro hup
  rcases h.boot with hstopped | hread
  · rw [hup] at hstopped
    exact hstopped
  · rw [hup] at hread
    cases hread

/-- **Step lemma.** -/
theorem stuck_step {data : GoString} (hdata : data.length ≠ keySize) (s : State)
    (a : Label) (s' : State) (h : Stuck env data s) (hproper : Proper env s a)
    (hstep : (deployment env lib).step s a = some s') : Stuck env data s' := by
  cases a with
  | start =>
      simp only [deployment] at hstep
      split at hstep
      · obtain rfl := Option.some.inj hstep
        exact ⟨h.file, .inr rfl⟩
      · obtain rfl := Option.some.inj hstep
        exact ⟨h.file, .inr rfl⟩
      · cases hstep
  | statement o random =>
      have hadvances := statement_step hstep
      obtain ⟨w, b⟩ := s
      obtain ⟨w', b'⟩ := s'
      obtain ⟨hfile, hboot⟩ := h
      cases hadvances with
      | rest _ _ => exact ⟨hfile, hboot⟩
      | failed _ err => exact ⟨hfile, .inl trivial⟩
      | loaded key hkey hsize =>
          obtain rfl := Option.some.inj (hfile.symm.trans hkey)
          exact absurd hsize hdata
      | missing key _ hnone =>
          exact absurd (hfile.symm.trans hnone) (by simp)
      | made key => simp [Stopped] at hboot
      | opened key => simp [Stopped] at hboot
      | unopened key err => simp [Stopped] at hboot
      | written key => simp [Stopped] at hboot
      | unwritten key err => simp [Stopped] at hboot
  | kill =>
      obtain rfl := Option.some.inj hstep
      exact ⟨h.file, .inl trivial⟩
  | record env' o input =>
      obtain ⟨key, hup, -, -⟩ := record_step hstep
      exact absurd hup (h.not_up key)
  | task env' o input =>
      obtain ⟨key, hup, -, -⟩ := task_step hstep
      exact absurd hup (h.not_up key)
  | others w =>
      obtain rfl := Option.some.inj hstep
      exact ⟨hproper.1.trans h.file, h.boot⟩

theorem step_start {s : State} (h : Stopped s.boot) :
    (deployment env lib).step s .start = some ⟨s.world, .read⟩ := by
  obtain ⟨w, b⟩ := s
  cases b with
  | down => rfl
  | failed err => rfl
  | read => exact h.elim
  | mkdir key => exact h.elim
  | openKey key => exact h.elim
  | writeKey key => exact h.elim
  | up key => exact h.elim

/-- The step of a statement with this outcome. -/
theorem step_of_wp {w w' : World} {b b' : Boot} {o : Oracle Call}
    {random : Except GoError GoString}
    (h : (b.next env random).wp o ⟨w, 0⟩ fun r t => r = .ok b' ∧ t.state = w') :
    (deployment env lib).step ⟨w, b⟩ (.statement o random) = some ⟨w', b'⟩ := by
  obtain ⟨hr, hw⟩ := h
  simp only [deployment]
  split
  · next b'' t hrun =>
    rw [hrun] at hr hw
    obtain rfl := Except.ok.inj hr
    exact congrArg some (congrArg (State.mk · b'') hw)
  · next err t hrun =>
    rw [hrun] at hr
    cases hr

theorem step_read {w : World} {data : GoString}
    (hfile : w.files (keyPath env) = some data)
    (hsize : data.length = keySize) :
    (deployment env lib).step ⟨w, .read⟩ undisturbed = some ⟨w, .up data⟩ := by
  refine step_of_wp ?_
  unfold Boot.next
  rw [Prog.wp_bind, Prog.wp_attempt, CertificateFiles.readFile,
    Prog.wp_query_quiet, hfile]
  refine ⟨?_, rfl⟩
  show Except.ok (keyRead data) = _
  rw [keyRead, if_neg (not_not.mpr hsize)]

theorem step_missing {w : World} (hfile : w.files (keyPath env) = none) :
    (deployment env lib).step ⟨w, .read⟩ undisturbed =
      some ⟨w, .mkdir zeroKey⟩ := by
  refine step_of_wp ?_
  unfold Boot.next
  rw [Prog.wp_bind, Prog.wp_attempt, CertificateFiles.readFile,
    Prog.wp_query_quiet, hfile]
  exact ⟨rfl, rfl⟩

/-- A start of which nothing fails. -/
def undisturbedStart (n : Nat) : List Label :=
  .start :: List.replicate n undisturbed

theorem proper_undisturbedStart (n : Nat) (s : State) :
    (deployment env lib).Along (Proper env) s (undisturbedStart n) := by
  refine Machine.along_of_mem _ _ _ fun a ha t => ?_
  rcases List.mem_cons.mp ha with rfl | ha
  · trivial
  · rw [List.eq_of_mem_replicate ha]
    exact proper_undisturbed t

/-- With a file that is missing or whole, such a start succeeds. -/
theorem undisturbedStart_up {s : State} (hstopped : Stopped s.boot)
    (hwhole : Whole env s.world) :
    ∃ n s' key, (deployment env lib).run s (undisturbedStart n) = some s' ∧
      s'.boot = .up key := by
  have hstart : (deployment env lib).step s .start = some ⟨s.world, .read⟩ :=
    step_start hstopped
  cases hfile : s.world.files (keyPath env) with
  | some data =>
      refine ⟨1, ⟨s.world, .up data⟩, data, ?_, rfl⟩
      exact (Machine.run_cons_eq_some _).mpr ⟨_, hstart,
        (Machine.run_cons_eq_some _).mpr
          ⟨_, step_read hfile (hwhole data hfile), rfl⟩⟩
  | none =>
      refine ⟨4, ⟨setFile (keyPath env) zeroKey (setFile (keyPath env) []
        s.world), .up zeroKey⟩, zeroKey, ?_, rfl⟩
      exact (Machine.run_cons_eq_some _).mpr ⟨_, hstart,
        (Machine.run_cons_eq_some _).mpr ⟨_, step_missing hfile, rfl⟩⟩

/-- What any run leaves of a key file of another size. -/
theorem stuck_run {s s' : State} {as : List Label} {data : GoString}
    (hstopped : Stopped s.boot) (hfile : s.world.files (keyPath env) = some data)
    (hdata : data.length ≠ keySize)
    (hproper : (deployment env lib).Along (Proper env) s as)
    (hrun : (deployment env lib).run s as = some s') : Stuck env data s' :=
  Machine.invariant_along (stuck_step hdata) as s s' ⟨hfile, .inl hstopped⟩
    hproper hrun

/-- **When the program can be started again**: from a state without a running
program some run brings one up, if and only if the key file is missing or whole.
A file of another size is never replaced. -/
theorem starts_again_iff (env : Env) (lib : Library) (s : State)
    (hstopped : Stopped s.boot) :
    ((∃ as s' key, (deployment env lib).Along (Proper env) s as ∧
        (deployment env lib).run s as = some s' ∧ s'.boot = .up key) ↔
      Whole env s.world) ∧
    ∀ data, s.world.files (keyPath env) = some data → data.length ≠ keySize →
      ∀ as s', (deployment env lib).Along (Proper env) s as →
        (deployment env lib).run s as = some s' →
          s'.world.files (keyPath env) = some data := by
  refine ⟨⟨?_, ?_⟩, ?_⟩
  · rintro ⟨as, s', key, hproper, hrun, hup⟩ data hfile
    by_contra hdata
    exact (stuck_run hstopped hfile hdata hproper hrun).not_up key hup
  · intro hwhole
    obtain ⟨n, s', key, hrun, hup⟩ := undisturbedStart_up hstopped hwhole
    exact ⟨undisturbedStart n, s', key, proper_undisturbedStart n s, hrun, hup⟩
  · intro data hfile hdata as s' hproper hrun
    exact (stuck_run hstopped hfile hdata hproper hrun).file

end Again

theorem starts_again_iff_new :
    ∃ as s' key,
      (deployment marking library).Along (Proper marking)
          (start fun _ _ => none) as ∧
        (deployment marking library).run (start fun _ _ => none) as = some s' ∧
          s'.boot = .up key := by
  have hstopped : Stopped (start fun _ _ => none).boot := trivial
  refine (starts_again_iff marking library _ hstopped).1.mpr ?_
  intro data hdata
  cases hdata

/-- A start that is killed after the file was opened and before the key was
written. -/
private def tornStart : List Label :=
  [.start, undisturbed, undisturbed, undisturbed, .kill]

/-- What it leaves. -/
private def torn : State :=
  ⟨setFile (keyPath Env.sample) [] (World.init fun _ _ => none), .down⟩

/-- **A torn key file**: one kill at the wrong moment, and the program never
starts again. -/
theorem torn_key_file_stops_starts :
    (deployment Env.sample library).run (start fun _ _ => none) tornStart =
        some torn ∧
      ¬∃ as s' key,
        (deployment Env.sample library).Along (Proper Env.sample) torn as ∧
          (deployment Env.sample library).run torn as = some s' ∧
            s'.boot = .up key := by
  refine ⟨rfl, ?_⟩
  rintro ⟨as, s', key, hproper, hrun, hup⟩
  have hstopped : Stopped torn.boot := trivial
  have hempty : ([] : GoString).length ≠ keySize := by decide
  exact (stuck_run hstopped (setFile_key []) hempty hproper hrun).not_up key hup

end Hdns.Ports.KeyRestarts

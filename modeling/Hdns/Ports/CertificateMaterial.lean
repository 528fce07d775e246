import Hdns.Ports.CertificateFiles
import Hdns.Verified.Machine
import Mathlib.Data.List.Infix

/-!
# Certificate files under concurrent readers

The issuances of one record run one after another, kept apart by the slot of
the record, while any number of tasks and downloads read its files.  A step of
this machine is one statement of the issuance or of a reader, so a reader can
meet the files of two issuances, or a file that was truncated.

## Main results

* `Orderly` — the order of writes and reads, and the failures, under which this
  does not happen.
* `Intact`, `intact_step` — what an orderly step keeps.
* `certificate_material_never_mixed` — in an orderly run every reader that
  succeeds returns the files of one issuance, and with no issuance under way
  the files are those of the last successful one.
-/

namespace Hdns.Ports.CertificateMaterial

open Hdns.Verified
open Hdns.Verified.GoString
open Hdns.Ports.Schema
open Hdns.Ports.UpdateAddress
open Hdns.Ports.Names
open Hdns.Ports.Records
open Hdns.Ports.Certificates
open Hdns.Ports.CertificateFiles

/-! ## The machine -/

/-- An issuance that has obtained its certificate, with the number of issuances
before it. -/
structure Issuance where
  record : Record
  certID : Int
  res : Resource
  number : Nat
  pos : Writing

/-- The directory it writes to. -/
def Issuance.dir (env : Env) (x : Issuance) : GoString :=
  certificateDir env x.record

/-- The database and the disk, the issuance under way, and the readers.  The
last three fields are kept for the statements about runs: the certificates
issued so far, directory and certificate of the last issuance that succeeded,
and for each reader the issuance that had written the first file it read, when
that issuance was still under way. -/
structure State where
  world : World
  issuance : Option Issuance
  loaders : Pool Loader
  issued : List Resource
  last : Option (GoString × Resource)
  follows : Nat → Option Nat

/-- Before the first issuance. -/
def start (zones : Zones) : State where
  world := World.init zones
  issuance := none
  loaders := fun _ => .idle
  issued := []
  last := none
  follows := fun _ => none

/-- A label: an issuance obtains `res` for the record as it reads it, or
carries out its next statement; a reader starts, or carries out its next
statement; or another call of the server changes what is neither a file nor a
certificate row. -/
inductive Label where
  | issue (record : Record) (res : Resource) (o : Oracle Call)
  | writer (o : Oracle Call)
  | load (i : Nat) (k : Kind)
  | reader (i : Nat) (o : Oracle Call)
  | others (w : World)

/-- The file was opened by an issuance that stands here, or is written. -/
def reached (n : GoString) : Writing → Bool
  | .files todo => !(todo.map (·.1)).contains n
  | .write _ todo => !(todo.map (·.1)).contains n
  | .persist _ => true
  | _ => false

/-- An issuance that stands here has still to write the file. -/
def owes (n : GoString) : Writing → Bool
  | .files todo => (todo.map (·.1)).contains n
  | .write f todo => n == f.1 || (todo.map (·.1)).contains n
  | _ => false

/-- The file an issuance that stands here has truncated. -/
def opened : Writing → Option GoString
  | .write f _ => some f.1
  | _ => none

/-- The issuance has opened the file at this path. -/
def Issuance.Reached (env : Env) (x : Issuance) (p : GoString) : Prop :=
  ∃ n ∈ fileNames, reached n x.pos = true ∧ pathIn (x.dir env) n = p

instance (env : Env) (x : Issuance) (p : GoString) :
    Decidable (x.Reached env p) :=
  inferInstanceAs (Decidable (∃ n ∈ fileNames, _ ∧ _))

/-- The number of the issuance that has opened the file at this path. -/
def State.reachedBy (env : Env) (s : State) (p : GoString) : Option Nat :=
  s.issuance.bind fun x => if x.Reached env p then some x.number else none

/-- Whom the readers follow after the next statement of reader `i`. -/
def State.followsAfter (env : Env) (s : State) (i : Nat) : Nat → Option Nat :=
  match s.loaders i with
  | .reading _ (f :: _) [] =>
      Function.update s.follows i (s.reachedBy env f.2)
  | _ => s.follows

/-- The issuance `x` goes on, or returns. -/
def State.wrote (env : Env) (s : State) (x : Issuance) (w : World) :
    Writing ⊕ Except GoError Unit → State
  | .inl pos => { s with
      world := w
      issuance := some { x with pos := pos } }
  | .inr (.ok ()) => { s with
      world := w
      issuance := none
      last := some (x.dir env, x.res) }
  | .inr (.error _) => { s with
      world := w
      issuance := none }

/-- The machine of the issuances and the readers of one record. -/
def materials (env : Env) (recordID : Int) : Machine State Label where
  step s
    | .issue record res o =>
        if s.issuance.isNone ∧ record.id = recordID then
          match ensureCertificateRow record (buildDomains record) o
            ⟨s.world, 0⟩ with
          | (.ok certID, sys) => some { s with
              world := sys.state
              issuance := some ⟨record, certID, res, s.issued.length, .mkdir⟩
              issued := s.issued ++ [res] }
          | (.error _, sys) => some { s with world := sys.state }
        else none
    | .writer o =>
        match s.issuance with
        | none => none
        | some x =>
            match x.pos.next env x.record x.certID x.res o ⟨s.world, 0⟩ with
            | (.ok y, sys) => some (s.wrote env x sys.state y)
            | (.error _, _) => none
    | .load i k =>
        match s.loaders i with
        | .idle => some { s with loaders := s.loaders.set i (.row k) }
        | _ => none
    | .reader i o =>
        match (s.loaders i).next recordID o ⟨s.world, 0⟩ with
        | (.ok l, sys) => some { s with
            world := sys.state
            loaders := s.loaders.set i l
            follows := s.followsAfter env i }
        | (.error _, _) => none
    | .others w => some { s with world := { w with
        files := s.world.files
        certificates := s.world.certificates } }

/-! ## Orderly steps -/

/-- Reader `i` has read a file and has still to read the one at `p`. -/
def Awaits (s : State) (i : Nat) (p : GoString) : Prop :=
  ∃ k rest got, s.loaders i = .reading k rest got ∧ got ≠ [] ∧
    p ∈ rest.map (·.2)

/-- The statement fails and leaves some files of the issuance in place, or an
empty one. -/
def Tears (o : Oracle Call) : Writing → Prop
  | .files (f :: _) => o 0 .openFile = .lostReply ∨
      o 0 .openFile = .fails ∧ f.1 ≠ certPem
  | .write _ _ => o 0 .writeFile ≠ .none
  | _ => False

/-- The statement fails after all files are in place. -/
def FailsLate (env : Env) (o : Oracle Call) (res : Resource) : Writing → Prop
  | .files [] => ∃ cause, parseLeafCertificate env res.certificate =
      .error cause
  | .persist p => o 0 .updateCertificate ≠ .none ∨ p.rejected = true
  | _ => False

/-- The row points to the files of this directory. -/
def RowAt (c : Certificate) (d : GoString) : Prop :=
  c.certPath = pathIn d fullchainPem ∧ c.keyPath = pathIn d privkeyPem

/-- A row points to the directory, or a reader has still to read there. -/
def Used (s : State) (d : GoString) : Prop :=
  (∃ c ∈ s.world.certificates.rows, RowAt c d) ∨
    ∃ i k rest got, s.loaders i = .reading k rest got ∧
      ∃ n ∈ fileNames, pathIn d n ∈ rest.map (·.2)

/-- The last issuance that succeeded wrote to another directory. -/
def Superseded (s : State) (d : GoString) : Prop :=
  ∀ res, s.last ≠ some (d, res)

/-- **The condition.**  An issuance opens a file only when every reader that
has begun and still has to read it began with a file of this issuance, and it
fails after its first file only where no one looks.  A reader does not read a
file that is being written, and once it has begun with a file of the issuance
under way, none that this one has still to write. -/
def Orderly (env : Env) (s : State) : Label → Prop
  | .writer o => ∀ x ∈ s.issuance,
      (∀ f todo, x.pos = .files (f :: todo) → o 0 .openFile ≠ .fails →
        ∀ i, Awaits s i (pathIn (x.dir env) f.1) →
          s.follows i = some x.number) ∧
      (Tears o x.pos → ¬Used s (x.dir env) ∧ Superseded s (x.dir env)) ∧
      (FailsLate env o x.res x.pos → Superseded s (x.dir env))
  | .reader i _ => ∀ k f rest got, s.loaders i = .reading k (f :: rest) got →
      ∀ x ∈ s.issuance,
        (∀ n ∈ opened x.pos, f.2 ≠ pathIn (x.dir env) n) ∧
        (got ≠ [] → s.follows i = some x.number → ∀ n ∈ fileNames,
          owes n x.pos = true → f.2 ≠ pathIn (x.dir env) n)
  | _ => True

/-! ## The invariant -/

/-- The files of the directory that no issuance has opened are those of
`res`. -/
def Keeps (env : Env) (w : World) (x? : Option Issuance) (d : GoString)
    (res : Resource) : Prop :=
  ∀ n ∈ fileNames, (∀ x ∈ x?, ¬x.Reached env (pathIn d n)) →
    w.files (pathIn d n) = some (fileContent res n)

/-- The files an issuance has still to write, and those it has written. -/
structure Issuance.Sound (env : Env) (w : World) (x : Issuance) : Prop where
  todo : ∀ todo, x.pos = .files todo → todo <:+ certificateFiles x.res
  writing : ∀ f todo, x.pos = .write f todo →
    (f :: todo) <:+ certificateFiles x.res
  written : ∀ n ∈ fileNames, reached n x.pos = true → opened x.pos ≠ some n →
    w.files (pathIn (x.dir env) n) = some (fileContent x.res n)
  paths : ∀ p, x.pos = .persist p →
    p.certPath = pathIn (x.dir env) fullchainPem ∧
      p.keyPath = pathIn (x.dir env) privkeyPem

/-- What a reader that follows the issuance under way knows of it. -/
structure Followed (env : Env) (x : Issuance) (d : GoString) (res : Resource)
    (done : List GoString) : Prop where
  started : x.pos ≠ .mkdir
  res : x.res = res
  dir : x.dir env = d
  done : ∀ n ∈ done, owes n x.pos = false

/-- The names a reader has still to read, with their paths. -/
def planIn (d : GoString) (names : List GoString) :
    List (GoString × GoString) :=
  names.map fun n => (n, pathIn d n)

/-- **What a reader can rely on.** -/
inductive Loader.Sound (env : Env) (s : State) (i : Nat) : Loader → Prop where
  | idle : Loader.Sound env s i .idle
  | row (k : Kind) : Loader.Sound env s i (.row k)
  /-- It has read no file: what no issuance has opened is of one issuance. -/
  | ahead (k : Kind) (rest : List (GoString × GoString)) (d : GoString)
      (res : Resource) (hd : GoPath.clean d = d)
      (hrest : rest = planIn d k.names) (hres : res ∈ s.issued)
      (hkeeps : Keeps env s.world s.issuance d res) :
      Loader.Sound env s i (.reading k rest [])
  /-- The files that are left are those of the issuance it began with, or this
  one has still to write them. -/
  | begun (k : Kind) (rest : List (GoString × GoString))
      (got : List GoString) (d : GoString) (res : Resource)
      (done names : List GoString) (hd : GoPath.clean d = d)
      (hnames : k.names = done ++ names) (hdone : done ≠ [])
      (hrest : rest = planIn d names) (hres : res ∈ s.issued)
      (hgot : got = done.map (fileContent res))
      (hfollows : ∀ x ∈ s.issuance, s.follows i = some x.number →
        Followed env x d res done)
      (hfiles : ∀ n ∈ names,
        (s.world.files (pathIn d n) = some (fileContent res n) ∧
          ∀ x ∈ s.issuance, ∀ m ∈ opened x.pos,
            pathIn d n ≠ pathIn (x.dir env) m) ∨
        ∃ x ∈ s.issuance, s.follows i = some x.number ∧
          owes n x.pos = true) :
      Loader.Sound env s i (.reading k rest got)
  | done (k : Kind) (got : List GoString) (res : Resource)
      (hres : res ∈ s.issued) (hgot : got = k.names.map (fileContent res)) :
      Loader.Sound env s i (.returned k (.ok got))
  | refused (k : Kind) (err : GoError) :
      Loader.Sound env s i (.returned k (.error err))

/-- **The invariant.** -/
structure Intact (env : Env) (s : State) : Prop where
  issuance : ∀ x ∈ s.issuance, x.Sound env s.world ∧ x.res ∈ s.issued ∧
    x.number < s.issued.length
  rows : ∀ c ∈ s.world.certificates.rows, c.certPath = [] ∨ c.keyPath = [] ∨
    ∃ d res, GoPath.clean d = d ∧ RowAt c d ∧ res ∈ s.issued ∧
      Keeps env s.world s.issuance d res
  last : ∀ d res, s.last = some (d, res) → GoPath.clean d = d ∧
    Keeps env s.world s.issuance d res
  loaders : ∀ i, Loader.Sound env s i (s.loaders i)
  follows : ∀ i k, s.follows i = some k → k < s.issued.length

/-! ## Files and directories -/

section Files

variable {env : Env} {w w' : World} {x : Issuance} {d n : GoString}

theorem dir_clean (env : Env) (x : Issuance) :
    GoPath.clean (x.dir env) = x.dir env := certificateDir_clean env x.record

theorem reached_pathIn (hd : GoPath.clean d = d) (hn : n ∈ fileNames) :
    x.Reached env (pathIn d n) ↔ x.dir env = d ∧ reached n x.pos = true := by
  constructor
  · rintro ⟨m, hm, hreached, hpath⟩
    obtain ⟨hdir, rfl⟩ := (pathIn_inj (dir_clean env x) hd hm hn).mp hpath
    exact ⟨hdir, hreached⟩
  · rintro ⟨rfl, hreached⟩
    exact ⟨n, hn, hreached, rfl⟩

/-- All four files are those of `res`. -/
def Holds (w : World) (d : GoString) (res : Resource) : Prop :=
  ∀ n ∈ fileNames, w.files (pathIn d n) = some (fileContent res n)

theorem Keeps.mono {x? x?' : Option Issuance} {res : Resource}
    (h : Keeps env w x? d res)
    (hstep : ∀ n ∈ fileNames, (∀ x ∈ x?', ¬x.Reached env (pathIn d n)) →
      (∀ x ∈ x?, ¬x.Reached env (pathIn d n)) ∧
        w'.files (pathIn d n) = w.files (pathIn d n)) :
    Keeps env w' x?' d res := by
  intro n hn hfree
  obtain ⟨hfree', hfiles⟩ := hstep n hn hfree
  rw [hfiles]
  exact h n hn hfree'

/-- Where nothing was opened all files are kept. -/
theorem Keeps.holds {x? : Option Issuance} {res : Resource}
    (h : Keeps env w x? d res)
    (hfree : ∀ x ∈ x?, ∀ n ∈ fileNames, ¬x.Reached env (pathIn d n)) :
    Holds w d res :=
  fun n hn => h n hn fun x hx => hfree x hx n hn

theorem Holds.keeps {res : Resource} (h : Holds w d res)
    (x? : Option Issuance) : Keeps env w x? d res := fun n hn _ => h n hn

theorem setFile_self (p content : GoString) (w : World) :
    (setFile p content w).files p = some content := if_pos rfl

theorem setFile_ne {p q : GoString} (content : GoString) (w : World)
    (h : q ≠ p) : (setFile p content w).files q = w.files q := if_neg h

end Files

/-! ## Where an issuance stands -/

section Position

variable {env : Env} {w : World} {x : Issuance}

theorem mem_of_suffix {f : GoString × GoString}
    {todo : List (GoString × GoString)} {res : Resource}
    (h : (f :: todo) <:+ certificateFiles res) : f.1 ∈ fileNames := by
  rw [← map_certificateFiles res]
  exact List.mem_map_of_mem (h.subset List.mem_cons_self)

theorem content_of_suffix {f : GoString × GoString}
    {todo : List (GoString × GoString)} {res : Resource}
    (h : (f :: todo) <:+ certificateFiles res) :
    fileContent res f.1 = f.2 :=
  fileContent_of_mem (h.subset List.mem_cons_self)

/-- The names that are left are a suffix of all names. -/
theorem names_suffix {todo : List (GoString × GoString)} {res : Resource}
    (h : todo <:+ certificateFiles res) : todo.map (·.1) <:+ fileNames := by
  rw [← map_certificateFiles res]
  exact h.map _

/-- The file being written is not among those left. -/
theorem not_mem_of_suffix {f : GoString × GoString}
    {todo : List (GoString × GoString)} {res : Resource}
    (h : (f :: todo) <:+ certificateFiles res) :
    f.1 ∉ todo.map (·.1) := by
  have hnodup := (names_suffix h).sublist.nodup fileNames_nodup
  rw [List.map_cons, List.nodup_cons] at hnodup
  exact hnodup.1

/-- With the first file, all of them are left. -/
theorem all_of_certPem {f : GoString × GoString}
    {todo : List (GoString × GoString)} {res : Resource}
    (h : (f :: todo) <:+ certificateFiles res) (hf : f.1 = certPem) :
    (f :: todo).map (·.1) = fileNames := by
  have hall : ∀ l ∈ fileNames.tails, certPem ∈ l → l = fileNames := by decide
  refine hall _ ((List.mem_tails _ _).mpr (names_suffix h)) ?_
  rw [List.map_cons, hf]
  exact List.mem_cons_self

/-- What is read after a file that is left is left too. -/
theorem rest_of_suffix {l : List GoString} (h : l <:+ fileNames) {k : Kind}
    {n : GoString} {names : List GoString} (hk : k.names = n :: names)
    (hn : n ∈ l) : ∀ m ∈ names, m ∈ l := by
  have hall : ∀ k ∈ [Kind.task, Kind.archive], ∀ l ∈ fileNames.tails,
      k.names.headD [] ∈ l → ∀ m ∈ k.names.tail, m ∈ l := by decide
  have hmem : k ∈ [Kind.task, Kind.archive] := by cases k <;> simp
  have hk' := hall k hmem l ((List.mem_tails _ _).mpr h)
  rw [hk] at hk'
  exact hk' hn

/-- A file that was opened and is not the open one is written. -/
theorem owes_of_reached {n : GoString} {pos : Writing}
    (hreached : reached n pos = true) (hopen : opened pos ≠ some n) :
    owes n pos = false := by
  cases pos with
  | files todo => simpa [reached, owes] using hreached
  | write f todo =>
      have hne : n ≠ f.1 := fun h => hopen (h ▸ rfl)
      simp only [reached, Bool.not_eq_true'] at hreached
      simp only [owes, hreached, Bool.or_false, beq_eq_false_iff_ne]
      exact hne
  | _ => rfl

/-- The files an issuance has opened or has still to write. -/
theorem reached_of_not_owes {n m : GoString} {pos : Writing}
    (hreached : reached n pos = true) (howes : owes m pos = false) :
    reached m pos = true ∧ opened pos ≠ some m := by
  cases pos with
  | files todo => exact ⟨by simpa [reached, owes] using howes, nofun⟩
  | write f todo =>
      simp only [owes, Bool.or_eq_false_iff, beq_eq_false_iff_ne] at howes
      refine ⟨by simpa [reached] using howes.2, fun h => ?_⟩
      exact howes.1 (Option.some.inj h).symm
  | persist p => exact ⟨rfl, nofun⟩
  | _ => cases hreached

end Position

/-! ## Statements of the issuance -/

theorem mem_planIn {d p : GoString} {names : List GoString} :
    p ∈ (planIn d names).map (·.2) ↔ ∃ n ∈ names, pathIn d n = p := by
  simp [planIn]

theorem names_subset (k : Kind) : ∀ n ∈ k.names, n ∈ fileNames := by
  cases k
  · exact fun _ h => h
  · decide

section Writer

variable {env : Env} {s : State} {x : Issuance}

/-- The issuance opens, writes or finishes its files. -/
structure Advances (env : Env) (s : State) (x : Issuance) (w' : World)
    (pos' : Writing) : Prop where
  rows : w'.certificates = s.world.certificates
  started : pos' ≠ .mkdir
  sound : Issuance.Sound env w' { x with pos := pos' }
  /-- What it has not opened it had not opened before. -/
  unopened : ∀ n ∈ fileNames, reached n pos' = false →
    reached n x.pos = false
  /-- Only opened files change. -/
  kept : ∀ p, (∀ n ∈ fileNames, reached n pos' = true →
    p ≠ pathIn (x.dir env) n) → w'.files p = s.world.files p
  debts : ∀ n, owes n pos' = true → x.pos = .mkdir ∨ owes n x.pos = true
  /-- A file a reader relies on is left alone, unless the reader follows. -/
  relied : ∀ i p, Awaits s i p →
    (∀ m ∈ opened x.pos, p ≠ pathIn (x.dir env) m) →
      (w'.files p = s.world.files p ∧
        ∀ m ∈ opened pos', p ≠ pathIn (x.dir env) m) ∨
      s.follows i = some x.number ∧
        ∃ n ∈ fileNames, p = pathIn (x.dir env) n ∧ owes n pos' = true
  /-- A file it owes is owed still, or written. -/
  paid : ∀ n ∈ fileNames, owes n x.pos = true → owes n pos' = true ∨
    w'.files (pathIn (x.dir env) n) = some (fileContent x.res n) ∧
      opened pos' ≠ some n

/-- The open file is one of the four. -/
theorem Issuance.Sound.opened_mem {w : World} (h : x.Sound env w)
    {n : GoString} (hn : opened x.pos = some n) : n ∈ fileNames := by
  obtain ⟨record, certID, res, number, pos⟩ := x
  cases pos with
  | write f todo =>
      obtain rfl := Option.some.inj hn
      exact mem_of_suffix (h.writing f todo rfl)
  | _ => cases hn

theorem Keeps.advance {w' : World} {pos' : Writing} {d : GoString}
    {res : Resource} (h : Keeps env s.world (some x) d res)
    (hd : GoPath.clean d = d) (hadv : Advances env s x w' pos') :
    Keeps env w' (some { x with pos := pos' }) d res := by
  refine h.mono fun n hn hfree => ?_
  have hfree' := hfree _ rfl
  rw [reached_pathIn hd hn] at hfree'
  constructor
  · intro y hy hreached
    obtain rfl := Option.some.inj hy
    obtain ⟨hdir, hreached⟩ := (reached_pathIn hd hn).mp hreached
    refine hfree' ⟨hdir, ?_⟩
    by_contra hnot
    rw [hadv.unopened n hn (by simpa using hnot)] at hreached
    cases hreached
  · refine hadv.kept _ fun m hm hreached hpath => hfree' ?_
    obtain ⟨hdir, rfl⟩ := (pathIn_inj hd (dir_clean env x) hn hm).mp hpath
    exact ⟨hdir.symm, hreached⟩

theorem Loader.Sound.advance {w' : World} {pos' : Writing} {i : Nat}
    {l : Loader} (hl : s.loaders i = l) (h : Loader.Sound env s i l)
    (hx : s.issuance = some x) (hadv : Advances env s x w' pos') :
    Loader.Sound env { s with
      world := w'
      issuance := some { x with pos := pos' } } i l := by
  cases h with
  | idle => exact .idle
  | row k => exact .row k
  | ahead k rest d res hd hrest hres hkeeps =>
      rw [hx] at hkeeps
      exact .ahead k rest d res hd hrest hres (hkeeps.advance hd hadv)
  | begun k rest got d res done names hd hnames hdone hrest hres hgot hfollows
      hfiles =>
      rw [hx] at hfollows hfiles
      refine .begun k rest got d res done names hd hnames hdone hrest hres hgot
        ?_ ?_
      · intro y hy hnumber
        obtain rfl := Option.some.inj hy
        have hfollowed := hfollows x rfl hnumber
        refine ⟨hadv.started, hfollowed.res, hfollowed.dir, fun n hn => ?_⟩
        by_contra hnot
        rcases hadv.debts n (by simpa using hnot) with hmkdir | howes
        · exact hfollowed.started hmkdir
        · rw [hfollowed.done n hn] at howes
          cases howes
      · intro n hn
        have hname : n ∈ fileNames := by
          refine names_subset k n ?_
          rw [hnames]
          exact List.mem_append_right done hn
        have hawaits : Awaits s i (pathIn d n) := by
          refine ⟨k, rest, got, hl, ?_, ?_⟩
          · simpa [hgot] using hdone
          · rw [hrest]
            exact mem_planIn.mpr ⟨n, hn, rfl⟩
        rcases hfiles n hn with ⟨hcontent, hopen⟩ | ⟨y, hy, hnumber, howes⟩
        · rcases hadv.relied i _ hawaits (hopen x rfl)
            with ⟨hsame, hopen'⟩ | ⟨hnumber, m, hm, hpath, howes⟩
          · refine .inl ⟨hsame.trans hcontent, fun y hy => ?_⟩
            obtain rfl := Option.some.inj hy
            exact hopen'
          · obtain ⟨_, rfl⟩ :=
              (pathIn_inj hd (dir_clean env x) hname hm).mp hpath
            exact .inr ⟨_, rfl, hnumber, howes⟩
        · obtain rfl := Option.some.inj hy
          have hfollowed := hfollows x rfl hnumber
          rcases hadv.paid n hname howes with howes' | ⟨hcontent, hopen⟩
          · exact .inr ⟨_, rfl, hnumber, howes'⟩
          · rw [hfollowed.dir, hfollowed.res] at hcontent
            refine .inl ⟨hcontent, fun y hy m hm hpath => ?_⟩
            obtain rfl := Option.some.inj hy
            have hmem := hadv.sound.opened_mem hm
            obtain ⟨_, rfl⟩ :=
              (pathIn_inj hd (dir_clean env x) hname hmem).mp hpath
            exact hopen hm
  | done k got res hres hgot => exact .done k got res hres hgot
  | refused k err => exact .refused k err

section Positions

variable {f : GoString × GoString} {todo : List (GoString × GoString)}
  {n : GoString}

@[simp] theorem reached_files :
    reached n (.files todo) = true ↔ n ∉ todo.map (·.1) := by
  simp only [reached, Bool.not_eq_true', List.contains_eq_mem,
    decide_eq_false_iff_not]

@[simp] theorem reached_write :
    reached n (.write f todo) = true ↔ n ∉ todo.map (·.1) := reached_files

@[simp] theorem owes_files :
    owes n (.files todo) = true ↔ n ∈ todo.map (·.1) := by
  simp only [owes, List.contains_eq_mem, decide_eq_true_eq]

@[simp] theorem owes_write :
    owes n (.write f todo) = true ↔ n = f.1 ∨ n ∈ todo.map (·.1) := by
  simp only [owes, Bool.or_eq_true, beq_iff_eq, List.contains_eq_mem,
    decide_eq_true_eq]

end Positions

theorem advances_made (hpos : x.pos = .mkdir) :
    Advances env s x s.world (.files (certificateFiles x.res)) where
  rows := rfl
  started := nofun
  sound :=
    { todo := fun todo h => by
        obtain rfl := Writing.files.inj h
        exact List.suffix_refl _
      writing := nofun
      written := fun n hn h => absurd (by rwa [map_certificateFiles])
        (reached_files.mp h)
      paths := nofun }
  unopened := fun n _ _ => by rw [hpos]; rfl
  kept := fun _ _ => rfl
  debts := fun _ _ => .inl hpos
  relied := fun _ _ _ _ => .inl ⟨rfl, nofun⟩
  paid := fun n _ h => by rw [hpos] at h; cases h

variable {f : GoString × GoString} {todo : List (GoString × GoString)}

theorem advances_opened (h : x.Sound env s.world)
    (hpos : x.pos = .files (f :: todo))
    (hfollow : ∀ i, Awaits s i (pathIn (x.dir env) f.1) →
      s.follows i = some x.number) :
    Advances env s x (setFile (pathIn (x.dir env) f.1) [] s.world)
      (.write f todo) := by
  have hsuffix := h.todo _ hpos
  have hf := mem_of_suffix hsuffix
  have hnot := not_mem_of_suffix hsuffix
  have hclean := dir_clean env x
  refine ⟨rfl, nofun, ⟨nofun, ?_, ?_, nofun⟩, ?_, ?_, ?_, ?_, ?_⟩
  · intro g rest hg
    obtain ⟨rfl, rfl⟩ := Writing.write.inj hg
    exact hsuffix
  · intro n hn hreached hopen
    have hne : n ≠ f.1 := fun heq => hopen (heq ▸ rfl)
    have hpath : pathIn (x.dir env) n ≠ pathIn (x.dir env) f.1 :=
      fun heq => hne ((pathIn_inj hclean hclean hn hf).mp heq).2
    refine (setFile_ne [] s.world hpath).trans (h.written n hn ?_ ?_)
    · rw [hpos, reached_files, List.map_cons, List.mem_cons, not_or]
      exact ⟨hne, reached_write.mp hreached⟩
    · rw [hpos]
      exact nofun
  · intro n _ hreached
    have hmem : n ∈ todo.map (·.1) := by
      by_contra hnot
      rw [reached_write.mpr hnot] at hreached
      cases hreached
    rw [hpos, ← Bool.not_eq_true, reached_files, not_not]
    exact List.mem_cons_of_mem _ hmem
  · intro p hp
    exact setFile_ne [] s.world (hp f.1 hf (reached_write.mpr hnot))
  · intro n howes
    rw [hpos, owes_files, List.map_cons, List.mem_cons]
    exact .inr (owes_write.mp howes)
  · intro i p hawaits _
    by_cases hp : p = pathIn (x.dir env) f.1
    · subst hp
      exact .inr ⟨hfollow i hawaits, f.1, hf, rfl, owes_write.mpr (.inl rfl)⟩
    · refine .inl ⟨setFile_ne [] s.world hp, fun m hm => ?_⟩
      obtain rfl := Option.some.inj hm
      exact hp
  · intro n _ howes
    rw [hpos, owes_files, List.map_cons, List.mem_cons] at howes
    exact .inl (owes_write.mpr howes)

theorem advances_written (h : x.Sound env s.world)
    (hpos : x.pos = .write f todo) :
    Advances env s x (setFile (pathIn (x.dir env) f.1) f.2 s.world)
      (.files todo) := by
  have hsuffix := h.writing _ _ hpos
  have hf := mem_of_suffix hsuffix
  have hnot := not_mem_of_suffix hsuffix
  have hclean := dir_clean env x
  have hself : (setFile (pathIn (x.dir env) f.1) f.2 s.world).files
      (pathIn (x.dir env) f.1) = some (fileContent x.res f.1) := by
    rw [setFile_self, content_of_suffix hsuffix]
  refine ⟨rfl, nofun, ⟨?_, nofun, ?_, nofun⟩, ?_, ?_, ?_, ?_, ?_⟩
  · intro rest hrest
    obtain rfl := Writing.files.inj hrest
    exact (List.suffix_cons f _).trans hsuffix
  · intro n hn hreached _
    by_cases hne : n = f.1
    · subst hne
      exact hself
    · have hpath : pathIn (x.dir env) n ≠ pathIn (x.dir env) f.1 :=
        fun heq => hne ((pathIn_inj hclean hclean hn hf).mp heq).2
      refine (setFile_ne f.2 s.world hpath).trans (h.written n hn ?_ ?_)
      · rw [hpos]
        exact reached_write.mpr (reached_files.mp hreached)
      · rw [hpos]
        exact fun heq => hne (Option.some.inj heq).symm
  · intro n _ hreached
    rw [hpos]
    exact hreached
  · intro p hp
    exact setFile_ne f.2 s.world (hp f.1 hf (reached_files.mpr hnot))
  · intro n howes
    rw [hpos]
    exact .inr (owes_write.mpr (.inr (owes_files.mp howes)))
  · intro i p _ hopen
    rw [hpos] at hopen
    exact .inl ⟨setFile_ne f.2 s.world (hopen f.1 rfl), nofun⟩
  · intro n _ howes
    rw [hpos] at howes
    rcases owes_write.mp howes with rfl | hmem
    · exact .inr ⟨hself, nofun⟩
    · exact .inl (owes_files.mpr hmem)

theorem advances_parsed {p : CertificateParams} (h : x.Sound env s.world)
    (hpos : x.pos = .files [])
    (hcert : p.certPath = pathIn (x.dir env) fullchainPem)
    (hkey : p.keyPath = pathIn (x.dir env) privkeyPem) :
    Advances env s x s.world (.persist p) where
  rows := rfl
  started := nofun
  sound :=
    { todo := nofun
      writing := nofun
      written := fun n hn _ _ => h.written n hn (by rw [hpos]; rfl)
        (by rw [hpos]; exact nofun)
      paths := fun q hq => by
        obtain rfl := Writing.persist.inj hq
        exact ⟨hcert, hkey⟩ }
  unopened := fun _ _ h => by cases h
  kept := fun _ _ => rfl
  debts := fun _ h => by cases h
  relied := fun _ _ _ _ => .inl ⟨rfl, nofun⟩
  paid := fun n _ h => by rw [hpos] at h; cases h

/-- The issuance has failed or returned, and what is used in `w'` is of one
issuance. -/
structure Settles (env : Env) (s : State) (x : Issuance) (w' : World)
    (y? : Option Issuance) : Prop where
  resting : ∀ y ∈ y?, ∃ cause, y = { x with pos := .failed cause }
  keep : ∀ d res, GoPath.clean d = d → Used s d → res ∈ s.issued →
    Keeps env s.world (some x) d res → ∃ res' ∈ s.issued, Holds w' d res'
  read : ∀ d, Used s d → GoPath.clean d = d → ∀ n ∈ fileNames,
    (∀ m ∈ opened x.pos, pathIn d n ≠ pathIn (x.dir env) m) →
      w'.files (pathIn d n) = s.world.files (pathIn d n)
  /-- Those who follow it have no file of it to wait for. -/
  clear : ∀ d res done, Used s d → done ≠ [] → (∀ n ∈ done, n ∈ fileNames) →
    Followed env x d res done → ∀ n, owes n x.pos = false

theorem used_of_reading {i : Nat} {k : Kind} {d : GoString}
    {names got : List GoString} {rest : List (GoString × GoString)}
    (hl : s.loaders i = .reading k rest got) (hrest : rest = planIn d names)
    {n : GoString} (hn : n ∈ names) (hname : n ∈ fileNames) : Used s d :=
  .inr ⟨i, k, rest, got, hl, n, hname, by
    rw [hrest]
    exact mem_planIn.mpr ⟨n, hn, rfl⟩⟩

theorem Loader.Sound.settle {w' : World} {y? : Option Issuance}
    {last : Option (GoString × Resource)} {i : Nat} {l : Loader}
    (hl : s.loaders i = l) (h : Loader.Sound env s i l)
    (hx : s.issuance = some x) (hset : Settles env s x w' y?) :
    Loader.Sound env { s with
      world := w'
      issuance := y?
      last := last } i l := by
  cases h with
  | idle => exact .idle
  | row k => exact .row k
  | ahead k rest d res hd hrest hres hkeeps =>
      have hname : k.names.headD [] ∈ k.names := by cases k <;> decide
      have hused := used_of_reading hl hrest hname (names_subset k _ hname)
      rw [hx] at hkeeps
      obtain ⟨res', hres', hholds⟩ := hset.keep d res hd hused hres hkeeps
      exact .ahead k rest d res' hd hrest hres' (hholds.keeps y?)
  | begun k rest got d res done names hd hnames hdone hrest hres hgot hfollows
      hfiles =>
      rw [hx] at hfollows hfiles
      have hsub : ∀ n ∈ done ++ names, n ∈ fileNames := by
        rw [← hnames]
        exact names_subset k
      refine .begun k rest got d res done names hd hnames hdone hrest hres hgot
        ?_ ?_
      · intro y hy hnumber
        obtain ⟨cause, rfl⟩ := hset.resting y hy
        have hfollowed := hfollows x rfl hnumber
        exact ⟨nofun, hfollowed.res, hfollowed.dir, fun _ _ => rfl⟩
      · intro n hn
        have hname := hsub n (List.mem_append_right done hn)
        have hused := used_of_reading hl hrest hn hname
        rcases hfiles n hn with ⟨hcontent, hopen⟩ | ⟨y, hy, hnumber, howes⟩
        · refine .inl ⟨?_, fun y hy m hm => ?_⟩
          · exact (hset.read d hused hd n hname (hopen x rfl)).trans hcontent
          · obtain ⟨cause, rfl⟩ := hset.resting y hy
            cases hm
        · obtain rfl := Option.some.inj hy
          have hclear := hset.clear d res done hused hdone
            (fun m hm => hsub m (List.mem_append_left names hm))
            (hfollows x rfl hnumber) n
          rw [hclear] at howes
          cases howes
  | done k got res hres hgot => exact .done k got res hres hgot
  | refused k err => exact .refused k err

theorem not_reached_of_ne {d n : GoString} (hd : GoPath.clean d = d)
    (hn : n ∈ fileNames) (hne : d ≠ x.dir env) :
    ∀ y ∈ some x, ¬y.Reached env (pathIn d n) := by
  intro y hy hreached
  obtain rfl := Option.some.inj hy
  exact hne ((reached_pathIn hd hn).mp hreached).1.symm

/-- The issuance ends before it has opened a file. -/
theorem settles_fresh {w' : World} {y? : Option Issuance}
    (hy : ∀ y ∈ y?, ∃ cause, y = { x with pos := .failed cause })
    (hfiles : w'.files = s.world.files)
    (hfree : ∀ n ∈ fileNames, reached n x.pos = false)
    (hclear : ∀ d res done, done ≠ [] → (∀ n ∈ done, n ∈ fileNames) →
      Followed env x d res done → ∀ n, owes n x.pos = false) :
    Settles env s x w' y? where
  resting := hy
  keep := fun d res hd _ hres hkeeps => by
    refine ⟨res, hres, fun n hn => ?_⟩
    rw [hfiles]
    refine hkeeps n hn fun y hy hreached => ?_
    obtain rfl := Option.some.inj hy
    rw [reached_pathIn hd hn, hfree n hn] at hreached
    cases hreached.2
  read := fun _ _ _ _ _ _ => by rw [hfiles]
  clear := fun d res done _ => hclear d res done

/-- The issuance ends with all its files written. -/
theorem settles_late {w' : World} {y? : Option Issuance}
    (h : x.Sound env s.world) (hres : x.res ∈ s.issued)
    (hy : ∀ y ∈ y?, ∃ cause, y = { x with pos := .failed cause })
    (hfiles : w'.files = s.world.files)
    (hall : ∀ n ∈ fileNames, reached n x.pos = true)
    (hopen : opened x.pos = none) (howes : ∀ n, owes n x.pos = false) :
    Settles env s x w' y? ∧ Holds w' (x.dir env) x.res := by
  have hholds : Holds w' (x.dir env) x.res := by
    intro n hn
    rw [hfiles]
    exact h.written n hn (hall n hn) (by simp [hopen])
  refine ⟨⟨hy, fun d res hd _ hres' hkeeps => ?_, fun _ _ _ _ _ _ => by
    rw [hfiles], fun _ _ _ _ _ _ _ => howes⟩, hholds⟩
  by_cases hdir : d = x.dir env
  · exact ⟨x.res, hres, hdir ▸ hholds⟩
  · refine ⟨res, hres', fun n hn => ?_⟩
    rw [hfiles]
    exact hkeeps n hn (not_reached_of_ne hd hn hdir)

/-- The issuance fails with some of its files opened, where no one looks. -/
theorem settles_torn {w' : World} {y? : Option Issuance}
    (hy : ∀ y ∈ y?, ∃ cause, y = { x with pos := .failed cause })
    (hunused : ¬Used s (x.dir env))
    (hfiles : ∀ p, (∀ n ∈ fileNames, p ≠ pathIn (x.dir env) n) →
      w'.files p = s.world.files p) : Settles env s x w' y? := by
  have hother : ∀ d, Used s d → GoPath.clean d = d → ∀ n ∈ fileNames,
      d ≠ x.dir env ∧ w'.files (pathIn d n) = s.world.files (pathIn d n) := by
    intro d hused hd n hn
    have hne : d ≠ x.dir env := fun h => hunused (h ▸ hused)
    refine ⟨hne, hfiles _ fun m hm hpath => hne ?_⟩
    exact ((pathIn_inj hd (dir_clean env x) hn hm).mp hpath).1
  refine ⟨hy, fun d res hd hused hres hkeeps => ?_,
    fun d hused hd n hn _ => (hother d hused hd n hn).2,
    fun d res done hused _ _ hfollowed => ?_⟩
  · refine ⟨res, hres, fun n hn => ?_⟩
    obtain ⟨hne, hsame⟩ := hother d hused hd n hn
    rw [hsame]
    exact hkeeps n hn (not_reached_of_ne hd hn hne)
  · rw [← hfollowed.dir] at hused
    exact absurd hused hunused

/-- Nothing is known of an issuance that has failed. -/
theorem sound_failed (env : Env) (w : World) (x : Issuance)
    (cause : GoError) :
    Issuance.Sound env w { x with pos := .failed cause } :=
  ⟨nofun, nofun, (fun _ _ h => nomatch h), nofun⟩

/-- The invariant after the issuance has failed or returned. -/
theorem Intact.settle (h : Intact env s) (hx : s.issuance = some x)
    {w' : World} {y? : Option Issuance}
    {last : Option (GoString × Resource)} (hset : Settles env s x w' y?)
    (hrows : ∀ c' ∈ w'.certificates.rows,
      (RowAt c' (x.dir env) ∧ Holds w' (x.dir env) x.res) ∨
        ∃ c ∈ s.world.certificates.rows,
          c.certPath = c'.certPath ∧ c.keyPath = c'.keyPath)
    (hlast : ∀ d res, last = some (d, res) → GoPath.clean d = d ∧
      Holds w' d res) :
    Intact env { s with
      world := w'
      issuance := y?
      last := last } := by
  obtain ⟨_, hres, hnumber⟩ := h.issuance x hx
  refine ⟨?_, ?_, ?_, ?_, h.follows⟩
  · intro y hy
    obtain ⟨cause, rfl⟩ := hset.resting y hy
    exact ⟨sound_failed env w' x cause, hres, hnumber⟩
  · intro c' hc'
    rcases hrows c' hc' with ⟨hrow, hholds⟩ | ⟨c, hc, hcert, hkey⟩
    · exact .inr (.inr ⟨x.dir env, x.res, dir_clean env x, hrow, hres,
        hholds.keeps y?⟩)
    · rcases h.rows c hc with hnone | hnone | ⟨d, res, hd, hrow, hres', hkeeps⟩
      · exact .inl (hcert ▸ hnone)
      · exact .inr (.inl (hkey ▸ hnone))
      · rw [hx] at hkeeps
        obtain ⟨res', hres'', hholds⟩ :=
          hset.keep d res hd (.inl ⟨c, hc, hrow⟩) hres' hkeeps
        rw [RowAt, hcert, hkey] at hrow
        exact .inr (.inr ⟨d, res', hd, hrow, hres'', hholds.keeps y?⟩)
  · intro d res hd
    exact ⟨(hlast d res hd).1, (hlast d res hd).2.keeps y?⟩
  · exact fun i => (h.loaders i).settle rfl hx hset

/-- The invariant after the issuance has gone on. -/
theorem Intact.advance (h : Intact env s) (hx : s.issuance = some x)
    {w' : World} {pos' : Writing} (hadv : Advances env s x w' pos') :
    Intact env { s with
      world := w'
      issuance := some { x with pos := pos' } } := by
  obtain ⟨_, hres, hnumber⟩ := h.issuance x hx
  refine ⟨?_, ?_, ?_, ?_, h.follows⟩
  · intro y hy
    obtain rfl := Option.some.inj hy
    exact ⟨hadv.sound, hres, hnumber⟩
  · intro c hc
    rw [hadv.rows] at hc
    rcases h.rows c hc with hnone | hnone | ⟨d, res, hd, hrow, hres', hkeeps⟩
    · exact .inl hnone
    · exact .inr (.inl hnone)
    · rw [hx] at hkeeps
      exact .inr (.inr ⟨d, res, hd, hrow, hres', hkeeps.advance hd hadv⟩)
  · intro d res hlast
    obtain ⟨hd, hkeeps⟩ := h.last d res hlast
    rw [hx] at hkeeps
    exact ⟨hd, hkeeps.advance hd hadv⟩
  · exact fun i => (h.loaders i).advance rfl hx hadv

/-- The last success, in another directory than the one the issuance wrote
to. -/
private theorem last_holds (h : Intact env s) (hx : s.issuance = some x)
    (hsup : Superseded s (x.dir env)) {w' : World}
    (hfiles : ∀ p, (∀ n ∈ fileNames, p ≠ pathIn (x.dir env) n) →
      w'.files p = s.world.files p) (d : GoString) (res : Resource)
    (hlast : s.last = some (d, res)) :
    GoPath.clean d = d ∧ Holds w' d res := by
  obtain ⟨hd, hkeeps⟩ := h.last d res hlast
  have hne : d ≠ x.dir env := fun heq => hsup res (heq ▸ hlast)
  refine ⟨hd, fun n hn => ?_⟩
  rw [hx] at hkeeps
  rw [hfiles _ fun m hm hpath => hne
    ((pathIn_inj hd (dir_clean env x) hn hm).mp hpath).1]
  exact hkeeps n hn (not_reached_of_ne hd hn hne)

section Ends

variable {w' : World} {y? : Option Issuance}
  (hy : ∀ y ∈ y?, ∃ cause, y = { x with pos := .failed cause })

include hy

/-- The issuance ends before it has opened a file. -/
theorem Intact.end_fresh (h : Intact env s) (hx : s.issuance = some x)
    (hfiles : w'.files = s.world.files) (hrows : RowsKept s.world w')
    (hfree : ∀ n ∈ fileNames, reached n x.pos = false)
    (hclear : ∀ d res done, done ≠ [] → (∀ n ∈ done, n ∈ fileNames) →
      Followed env x d res done → ∀ n, owes n x.pos = false) :
    Intact env { s with
      world := w'
      issuance := y? } := by
  refine h.settle hx (settles_fresh hy hfiles hfree hclear)
    (fun c hc => .inr (hrows c hc)) fun d res hlast => ?_
  obtain ⟨hd, hkeeps⟩ := h.last d res hlast
  refine ⟨hd, fun n hn => ?_⟩
  rw [hfiles]
  refine hkeeps n hn fun y hy hreached => ?_
  rw [hx] at hy
  obtain rfl := Option.some.inj hy
  rw [reached_pathIn hd hn, hfree n hn] at hreached
  cases hreached.2

/-- The issuance ends with all its files written. -/
theorem Intact.end_late (h : Intact env s) (hx : s.issuance = some x)
    (hfiles : w'.files = s.world.files)
    (hrows : ∀ c' ∈ w'.certificates.rows, RowAt c' (x.dir env) ∨
      ∃ c ∈ s.world.certificates.rows,
        c.certPath = c'.certPath ∧ c.keyPath = c'.keyPath)
    (hall : ∀ n ∈ fileNames, reached n x.pos = true)
    (hopen : opened x.pos = none) (howes : ∀ n, owes n x.pos = false)
    {last : Option (GoString × Resource)}
    (hlast : last = some (x.dir env, x.res) ∨
      last = s.last ∧ Superseded s (x.dir env)) :
    Intact env { s with
      world := w'
      issuance := y?
      last := last } := by
  obtain ⟨hsound, hres, _⟩ := h.issuance x hx
  obtain ⟨hset, hholds⟩ :=
    settles_late hsound hres hy hfiles hall hopen howes
  refine h.settle hx hset (fun c hc => ?_) fun d res hd => ?_
  · exact (hrows c hc).imp_left fun hrow => ⟨hrow, hholds⟩
  · rcases hlast with rfl | ⟨rfl, hsup⟩
    · obtain ⟨rfl, rfl⟩ := Prod.mk.inj (Option.some.inj hd)
      exact ⟨dir_clean env x, hholds⟩
    · exact last_holds h hx hsup (fun _ _ => by rw [hfiles]) d res hd

/-- The issuance fails with some of its files opened, where no one looks. -/
theorem Intact.end_torn (h : Intact env s) (hx : s.issuance = some x)
    (hunused : ¬Used s (x.dir env)) (hsup : Superseded s (x.dir env))
    (hrows : w'.certificates = s.world.certificates)
    (hfiles : ∀ p, (∀ n ∈ fileNames, p ≠ pathIn (x.dir env) n) →
      w'.files p = s.world.files p) :
    Intact env { s with
      world := w'
      issuance := y? } := by
  refine h.settle hx (settles_torn hy hunused hfiles) (fun c hc => ?_)
    (last_holds h hx hsup hfiles)
  rw [hrows] at hc
  exact .inr ⟨c, hc, rfl, rfl⟩

end Ends

/-- **What an orderly statement of the issuance keeps.** -/
theorem Intact.writes (h : Intact env s) (hx : s.issuance = some x)
    {o : Oracle Call} (horderly : Orderly env s (.writer o)) {w' : World}
    {y : Writing ⊕ Except GoError Unit}
    (hwrites : Writes env o x.record x.res s.world w' x.pos y) :
    Intact env (s.wrote env x w' y) := by
  obtain ⟨hopens, htears, hlate⟩ := horderly x hx
  obtain ⟨hsound, hres, _⟩ := h.issuance x hx
  generalize hpos : x.pos = pos at hwrites
  have hfailed : ∀ cause, ∀ y ∈ some { x with pos := Writing.failed cause },
      ∃ cause, y = { x with pos := .failed cause } := by
    intro cause y hy
    exact ⟨cause, (Option.some.inj hy).symm⟩
  have hreturned : ∀ y ∈ (none : Option Issuance),
      ∃ cause, y = { x with pos := .failed cause } := fun _ hy => nomatch hy
  cases hwrites with
  | made hw =>
      subst hw
      exact h.advance hx (advances_made hpos)
  | unmade cause hw =>
      subst hw
      refine h.end_fresh (hfailed cause) hx rfl (rowsKept_refl _) ?_ ?_
      · exact fun n _ => by rw [hpos]; rfl
      · exact fun d res done _ _ hfollowed => absurd hpos hfollowed.started
  | opened f todo ho hw =>
      subst hw
      refine h.advance hx (advances_opened hsound hpos ?_)
      exact hopens f todo hpos (by simp [ho])
  | unopened f todo cause ho hw =>
      subst hw
      by_cases hfirst : f.1 = certPem
      · have hall := all_of_certPem (hsound.todo _ hpos) hfirst
        refine h.end_fresh (hfailed cause) hx rfl (rowsKept_refl _) ?_ ?_
        · intro n hn
          rw [hpos, ← Bool.not_eq_true, reached_files, hall, not_not]
          exact hn
        · intro d res done hdone hsub hfollowed
          -- no reader has a file of an issuance that has written none
          obtain ⟨n, hn⟩ := List.exists_mem_of_ne_nil done hdone
          have howes := hfollowed.done n hn
          rw [hpos, ← Bool.not_eq_true, owes_files, hall] at howes
          exact absurd (hsub n hn) howes
      · obtain ⟨hunused, hsup⟩ := htears (by
          rw [hpos]
          exact .inr ⟨ho, hfirst⟩)
        exact h.end_torn (hfailed cause) hx hunused hsup rfl fun _ _ => rfl
  | truncated f todo cause ho hw =>
      subst hw
      obtain ⟨hunused, hsup⟩ := htears (by
        rw [hpos]
        exact .inl ho)
      have hf := mem_of_suffix (hsound.todo _ hpos)
      exact h.end_torn (hfailed cause) hx hunused hsup rfl fun p hp =>
        setFile_ne [] s.world (hp f.1 hf)
  | written f todo hw =>
      subst hw
      exact h.advance hx (advances_written hsound hpos)
  | unwritten f todo cause ho hw =>
      obtain ⟨hunused, hsup⟩ := htears (by
        rw [hpos]
        exact ho)
      have hf := mem_of_suffix (hsound.writing _ _ hpos)
      rcases hw with rfl | rfl
      · exact h.end_torn (hfailed cause) hx hunused hsup rfl fun _ _ => rfl
      · exact h.end_torn (hfailed cause) hx hunused hsup rfl fun p hp =>
          setFile_ne f.2 s.world (hp f.1 hf)
  | parsed p hcert hkey hw =>
      subst hw
      exact h.advance hx (advances_parsed hsound hpos hcert hkey)
  | unparsed cause hparse hw =>
      subst hw
      have hsup := hlate (by
        rw [hpos]
        exact ⟨cause, hparse⟩)
      refine h.end_late (hfailed cause) hx rfl
        (fun c hc => .inr ⟨c, hc, rfl, rfl⟩) ?_ ?_ ?_ (.inr ⟨rfl, hsup⟩)
      all_goals simp [hpos, reached, opened, owes]
  | persisted p hfiles hrows =>
      obtain ⟨hcert, hkey⟩ := hsound.paths p hpos
      refine h.end_late hreturned hx hfiles (fun c hc => ?_) ?_ ?_ ?_ (.inl rfl)
      · exact (hrows c hc).imp_left fun hpaths =>
          ⟨hpaths.1.trans hcert, hpaths.2.trans hkey⟩
      all_goals simp [hpos, reached, opened, owes]
  | unpersisted p cause ho hfiles hrows =>
      obtain ⟨hcert, hkey⟩ := hsound.paths p hpos
      have hsup := hlate (by
        rw [hpos]
        exact ho)
      refine h.end_late (hfailed cause) hx hfiles (fun c hc => ?_) ?_ ?_ ?_
        (.inr ⟨rfl, hsup⟩)
      · exact (hrows c hc).imp_left fun hpaths =>
          ⟨hpaths.1.trans hcert, hpaths.2.trans hkey⟩
      all_goals simp [hpos, reached, opened, owes]
  | closed cause hfiles hrows =>
      refine h.end_fresh hreturned hx hfiles hrows ?_ ?_
      · exact fun n _ => by rw [hpos]; rfl
      · exact fun _ _ _ _ _ _ n => by rw [hpos]; rfl

end Writer

/-! ## Statements of a reader -/

section Reader

variable {env : Env} {s s' : State} {i : Nat}

/-- What a reader relies on, after a step that is not about it. -/
theorem Loader.Sound.congr {l : Loader} (h : Loader.Sound env s i l)
    (hfiles : s'.world.files = s.world.files)
    (hissuance : s'.issuance = s.issuance) (hissued : s'.issued = s.issued)
    (hfollows : s'.follows i = s.follows i) : Loader.Sound env s' i l := by
  cases h with
  | idle => exact .idle
  | row k => exact .row k
  | ahead k rest d res hd hrest hres hkeeps =>
      refine .ahead k rest d res hd hrest (hissued ▸ hres) ?_
      rw [hissuance]
      exact hkeeps.mono fun n _ hfree => ⟨hfree, by rw [hfiles]⟩
  | begun k rest got d res done names hd hnames hdone hrest hres hgot hf
      hfs =>
      refine .begun k rest got d res done names hd hnames hdone hrest
        (hissued ▸ hres) hgot ?_ ?_
      · rw [hissuance, hfollows]
        exact hf
      · rw [hissuance, hfollows, hfiles]
        exact hfs
  | done k got res hres hgot => exact .done k got res (hissued ▸ hres) hgot
  | refused k err => exact .refused k err

/-- The plan of a reader is made of the files the row points to. -/
theorem plan_eq {c : Certificate} {d : GoString} (hd : GoPath.clean d = d)
    (hrow : RowAt c d) (k : Kind) : k.plan c = planIn d k.names := by
  cases k with
  | task =>
      have hdir : GoPath.dir c.certPath = d := by
        rw [hrow.1]
        exact GoPath.dir_join hd (fileNames_plain _ (by decide))
      rw [Kind.plan, hdir]
      rfl
  | archive =>
      rw [Kind.plan, hrow.1, hrow.2]
      rfl

/-- The open file of an issuance is another one than this. -/
theorem ne_opened {x : Issuance} {d n : GoString}
    (h : x.Sound env s.world) (hd : GoPath.clean d = d) (hn : n ∈ fileNames)
    (hopen : x.dir env = d → opened x.pos ≠ some n) :
    ∀ m ∈ opened x.pos, pathIn d n ≠ pathIn (x.dir env) m := by
  intro m hm hpath
  have hmem := h.opened_mem hm
  obtain ⟨hdir, rfl⟩ := (pathIn_inj hd (dir_clean env x) hn hmem).mp hpath
  exact hopen hdir.symm hm

/-- A first read of a file that the issuance under way has written: the reader
follows it. -/
theorem Loader.Sound.follow (h : Intact env s) {x : Issuance}
    (hx : s.issuance = some x) {k : Kind} {n : GoString}
    {names : List GoString} {content : GoString}
    (hnames : k.names = n :: names)
    (hreached : reached n x.pos = true) (hopen : opened x.pos ≠ some n)
    (hcontent : s.world.files (pathIn (x.dir env) n) = some content)
    (hworld : s'.world = s.world) (hissuance : s'.issuance = s.issuance)
    (hissued : s'.issued = s.issued)
    (hfollows : s'.follows i = some x.number) :
    Loader.Sound env s' i
      (.reading k (planIn (x.dir env) names) [content]) := by
  obtain ⟨hsound, hres, _⟩ := h.issuance x hx
  have hsub : ∀ m ∈ n :: names, m ∈ fileNames := by
    rw [← hnames]
    exact names_subset k
  have hfirst := hsound.written n (hsub n List.mem_cons_self) hreached hopen
  rw [hcontent] at hfirst
  refine .begun k _ _ (x.dir env) x.res [n] names (dir_clean env x) hnames
    (List.cons_ne_nil n []) rfl (hissued ▸ hres)
    (congrArg (fun c => [c]) (Option.some.inj hfirst)) ?_ ?_
  · intro y hy _
    rw [hissuance, hx] at hy
    obtain rfl := Option.some.inj hy
    refine ⟨?_, rfl, rfl, fun m hm => ?_⟩
    · intro hmkdir
      rw [hmkdir] at hreached
      cases hreached
    · rw [List.mem_singleton.mp hm]
      exact owes_of_reached hreached hopen
  · intro m hm
    by_cases howes : owes m x.pos = true
    · exact .inr ⟨x, hissuance.trans hx, hfollows, howes⟩
    · obtain ⟨hreached', hopen'⟩ :=
        reached_of_not_owes hreached (by simpa using howes)
      have hname := hsub m (List.mem_cons_of_mem n hm)
      refine .inl ⟨?_, fun y hy => ?_⟩
      · rw [hworld]
        exact hsound.written m hname hreached' hopen'
      · rw [hissuance, hx] at hy
        obtain rfl := Option.some.inj hy
        exact ne_opened hsound (dir_clean env x) hname fun _ => hopen'

/-- What an issuance has not opened, it has opened nothing after. -/
theorem unopened_after {x : Issuance} {w : World} (h : x.Sound env w)
    {k : Kind} {n : GoString} {names : List GoString}
    (hnames : k.names = n :: names) (hreached : reached n x.pos = false) :
    ∀ m ∈ names, reached m x.pos = false := by
  intro m hm
  obtain ⟨record, certID, res, number, pos⟩ := x
  cases pos with
  | files todo =>
      rw [← Bool.not_eq_true, reached_files, not_not] at hreached ⊢
      exact rest_of_suffix (names_suffix (h.todo todo rfl)) hnames hreached m
        hm
  | write f todo =>
      rw [← Bool.not_eq_true, reached_write, not_not] at hreached ⊢
      have hsuffix := (List.suffix_cons f todo).trans (h.writing f todo rfl)
      exact rest_of_suffix (names_suffix hsuffix) hnames hreached m hm
  | persist p => cases hreached
  | mkdir => rfl
  | failed cause => rfl

/-- An issuance has opened the file it is writing. -/
theorem reached_of_opened {x : Issuance} {w : World} (h : x.Sound env w)
    {n : GoString} (hn : opened x.pos = some n) : reached n x.pos = true := by
  obtain ⟨record, certID, res, number, pos⟩ := x
  cases pos with
  | write f todo =>
      obtain rfl := Option.some.inj hn
      exact reached_write.mpr (not_mem_of_suffix (h.writing f todo rfl))
  | _ => cases hn

/-- A first read of a file that no issuance has opened. -/
theorem Loader.Sound.begin (h : Intact env s) {k : Kind} {d n : GoString}
    {res : Resource} {names : List GoString} {content : GoString}
    (hd : GoPath.clean d = d) (hnames : k.names = n :: names)
    (hres : res ∈ s.issued) (hkeeps : Keeps env s.world s.issuance d res)
    (hfree : ∀ x ∈ s.issuance, ¬x.Reached env (pathIn d n))
    (hcontent : s.world.files (pathIn d n) = some content)
    (hworld : s'.world = s.world) (hissuance : s'.issuance = s.issuance)
    (hissued : s'.issued = s.issued) (hfollows : s'.follows i = none) :
    Loader.Sound env s' i (.reading k (planIn d names) [content]) := by
  have hsub : ∀ m ∈ n :: names, m ∈ fileNames := by
    rw [← hnames]
    exact names_subset k
  have hn := hsub n List.mem_cons_self
  have hfirst := hkeeps n hn hfree
  rw [hcontent] at hfirst
  have hfree' : ∀ m ∈ names, ∀ x ∈ s.issuance,
      ¬x.Reached env (pathIn d m) := by
    intro m hm x hx
    have hname := hsub m (List.mem_cons_of_mem n hm)
    rw [reached_pathIn hd hname]
    rintro ⟨hdir, hreached⟩
    have hnot : reached n x.pos = false := by
      by_contra hne
      exact hfree x hx ((reached_pathIn hd hn).mpr
        ⟨hdir, by simpa using hne⟩)
    rw [unopened_after (h.issuance x hx).1 hnames hnot m hm] at hreached
    cases hreached
  refine .begun k _ _ d res [n] names hd hnames (List.cons_ne_nil n []) rfl
    (hissued ▸ hres) (congrArg (fun c => [c]) (Option.some.inj hfirst)) ?_ ?_
  · intro x _ hnumber
    rw [hfollows] at hnumber
    cases hnumber
  · intro m hm
    have hname := hsub m (List.mem_cons_of_mem n hm)
    refine .inl ⟨?_, fun x hx => ?_⟩
    · rw [hworld]
      exact hkeeps m hname (hfree' m hm)
    · rw [hissuance] at hx
      have hsound := (h.issuance x hx).1
      refine ne_opened hsound hd hname fun hdir hopen => hfree' m hm x hx ?_
      exact (reached_pathIn hd hname).mpr
        ⟨hdir, reached_of_opened hsound hopen⟩

/-- A plan with a first file. -/
theorem planIn_eq_cons {d : GoString} {l : List GoString}
    {f : GoString × GoString} {rest : List (GoString × GoString)}
    (h : f :: rest = planIn d l) :
    ∃ n names, l = n :: names ∧ f = (n, pathIn d n) ∧
      rest = planIn d names := by
  cases l with
  | nil => cases h
  | cons n names =>
      obtain ⟨hf, hrest⟩ := List.cons.inj h
      exact ⟨n, names, rfl, hf, hrest⟩

/-- The next read of a reader that has begun. -/
theorem Loader.Sound.goOn {k : Kind} {f : GoString × GoString}
    {rest : List (GoString × GoString)} {got : List GoString}
    {content d : GoString} {res : Resource} {done names : List GoString}
    (hd : GoPath.clean d = d) (hnames : k.names = done ++ names)
    (hdone : done ≠ []) (hrest : f :: rest = planIn d names)
    (hres : res ∈ s.issued) (hgot : got = done.map (fileContent res))
    (hfollows : ∀ x ∈ s.issuance, s.follows i = some x.number →
      Followed env x d res done)
    (hfiles : ∀ n ∈ names,
      (s.world.files (pathIn d n) = some (fileContent res n) ∧
        ∀ x ∈ s.issuance, ∀ m ∈ opened x.pos,
          pathIn d n ≠ pathIn (x.dir env) m) ∨
      ∃ x ∈ s.issuance, s.follows i = some x.number ∧ owes n x.pos = true)
    (hpaid : ∀ x ∈ s.issuance, s.follows i = some x.number →
      ∀ n ∈ fileNames, owes n x.pos = true → f.2 ≠ pathIn (x.dir env) n)
    (hcontent : s.world.files f.2 = some content)
    (hworld : s'.world = s.world) (hissuance : s'.issuance = s.issuance)
    (hissued : s'.issued = s.issued)
    (hfollows' : s'.follows i = s.follows i) :
    Loader.Sound env s' i (.reading k rest (got ++ [content])) := by
  obtain ⟨n, names, rfl, rfl, rfl⟩ := planIn_eq_cons hrest
  have hname : n ∈ fileNames := by
    refine names_subset k n ?_
    rw [hnames]
    exact List.mem_append_right done List.mem_cons_self
  have howes : ∀ x ∈ s.issuance, s.follows i = some x.number →
      owes n x.pos = false := by
    intro x hx hnumber
    by_contra hne
    refine hpaid x hx hnumber n hname (by simpa using hne) ?_
    rw [(hfollows x hx hnumber).dir]
  have hread : content = fileContent res n := by
    rcases hfiles n List.mem_cons_self
      with ⟨hfile, _⟩ | ⟨x, hx, hnumber, howed⟩
    · rw [hcontent] at hfile
      exact Option.some.inj hfile
    · rw [howes x hx hnumber] at howed
      cases howed
  refine .begun k _ _ d res (done ++ [n]) names hd ?_ ?_ rfl (hissued ▸ hres)
    ?_ ?_ ?_
  · rw [hnames, List.append_assoc]
    rfl
  · exact List.append_ne_nil_of_left_ne_nil hdone [n]
  · rw [hgot, hread, List.map_append]
    rfl
  · rw [hissuance, hfollows']
    intro x hx hnumber
    have hfollowed := hfollows x hx hnumber
    refine ⟨hfollowed.started, hfollowed.res, hfollowed.dir, fun m hm => ?_⟩
    rcases List.mem_append.mp hm with hm | hm
    · exact hfollowed.done m hm
    · rw [List.mem_singleton.mp hm]
      exact howes x hx hnumber
  · rw [hissuance, hfollows', hworld]
    exact fun m hm => hfiles m (List.mem_cons_of_mem n hm)

/-- Whom the readers follow changes with a first read only. -/
theorem followsAfter_cases (env : Env) (s : State) (i : Nat) :
    s.followsAfter env i = s.follows ∨ ∃ k f rest,
      s.loaders i = .reading k (f :: rest) [] ∧
        s.followsAfter env i =
          Function.update s.follows i (s.reachedBy env f.2) := by
  unfold State.followsAfter
  split
  · next k f rest hl => exact .inr ⟨k, f, rest, hl, rfl⟩
  · exact .inl rfl

/-- **What an orderly statement of a reader keeps.** -/
theorem Intact.reads (h : Intact env s) {o : Oracle Call}
    (horderly : Orderly env s (.reader i o)) {l' : Loader}
    (hreads : Reads s.world (s.loaders i) l') :
    Intact env { s with
      loaders := s.loaders.set i l'
      follows := s.followsAfter env i } := by
  have hothers : ∀ j, j ≠ i → s.followsAfter env i j = s.follows j := by
    intro j hj
    rcases followsAfter_cases env s i with hsame | ⟨k, f, rest, _, hupdate⟩
    · rw [hsame]
    · rw [hupdate]
      exact Function.update_of_ne hj _ _
  have hself : Loader.Sound env { s with
      loaders := s.loaders.set i l'
      follows := s.followsAfter env i } i l' := by
    have hsound := h.loaders i
    generalize hl : s.loaders i = l at hreads hsound
    have hkept : (∀ k f rest, l ≠ .reading k (f :: rest) []) →
        s.followsAfter env i = s.follows := by
      intro hne
      rcases followsAfter_cases env s i with hsame | ⟨k, f, rest, hl', _⟩
      · exact hsame
      · exact absurd (hl.symm.trans hl') (hne k f rest)
    cases hreads with
    | found k c hc hcert hkey =>
        rcases h.rows c hc with hnone | hnone | ⟨d, res, hd, hrow, hres, hkeeps⟩
        · exact absurd hnone hcert
        · exact absurd hnone hkey
        · exact .ahead k _ d res hd (plan_eq hd hrow k) hres hkeeps
    | read k f rest got content hcontent =>
        cases hsound with
        | ahead _ _ d res hd hrest hres hkeeps =>
            obtain ⟨n, names, hnames, rfl, rfl⟩ := planIn_eq_cons hrest
            have hfollows : s.followsAfter env i i =
                s.reachedBy env (pathIn d n) := by
              unfold State.followsAfter
              rw [hl]
              exact Function.update_self _ _ _
            have hn := names_subset k n (hnames ▸ List.mem_cons_self)
            by_cases hreached : ∃ x ∈ s.issuance, x.Reached env (pathIn d n)
            · obtain ⟨x, hx, hx'⟩ := hreached
              have hx : s.issuance = some x := hx
              rw [State.reachedBy, hx, Option.bind_some, if_pos hx']
                at hfollows
              obtain ⟨rfl, hreached⟩ := (reached_pathIn hd hn).mp hx'
              refine .follow h hx hnames hreached (fun hopen => ?_) hcontent
                rfl rfl rfl hfollows
              exact (horderly k _ _ _ hl x hx).1 n hopen rfl
            · have hfree : ∀ x ∈ s.issuance, ¬x.Reached env (pathIn d n) :=
                fun x hx hx' => hreached ⟨x, hx, hx'⟩
              refine .begin h hd hnames hres hkeeps hfree hcontent rfl rfl rfl
                (hfollows.trans ?_)
              rw [State.reachedBy]
              cases hx : s.issuance with
              | none => rfl
              | some x => exact if_neg (hfree x hx)
        | begun _ _ _ d res done names hd hnames hdone hrest hres hgot hfs
            hfiles =>
            have hne : got ≠ [] := by simpa [hgot] using hdone
            refine .goOn hd hnames hdone hrest hres hgot hfs hfiles ?_ hcontent
              rfl rfl rfl ?_
            · exact fun x hx hnumber =>
                (horderly k f rest got hl x hx).2 hne hnumber
            · refine congrFun (hkept fun k' f' rest' heq => hne ?_) i
              injection heq
    | finished k got =>
        cases hsound with
        | ahead _ _ d res hd hrest hres hkeeps => cases k <;> cases hrest
        | begun _ _ _ d res done names hd hnames hdone hrest hres hgot hfs
            hfiles =>
            refine .done k got res hres ?_
            have hnil : names = [] := by
              cases names with
              | nil => rfl
              | cons n names => cases hrest
            rw [hgot, hnames, hnil, List.append_nil]
    | refused l k err => exact .refused k err
    | stays l hne =>
        refine hsound.congr rfl rfl rfl (congrFun (hkept ?_) i)
        exact fun k f rest => hne k (f :: rest) []
  refine ⟨h.issuance, h.rows, h.last, ?_, ?_⟩
  · intro j
    by_cases hj : j = i
    · subst hj
      change Loader.Sound env _ j (s.loaders.set j l' j)
      rw [Pool.set_self]
      exact hself
    · change Loader.Sound env _ j (s.loaders.set i l' j)
      rw [Pool.set_ne _ _ hj]
      exact (h.loaders j).congr rfl rfl rfl (hothers j hj)
  · intro j n hn
    by_cases hj : j = i
    · subst hj
      change s.followsAfter env j j = some n at hn
      rcases followsAfter_cases env s j with hsame | ⟨k, f, rest, _, hupdate⟩
      · rw [hsame] at hn
        exact h.follows j n hn
      · rw [hupdate, Function.update_self, State.reachedBy] at hn
        obtain ⟨x, hx, hnumber⟩ := Option.bind_eq_some_iff.mp hn
        split at hnumber
        · obtain rfl := Option.some.inj hnumber
          exact (h.issuance x hx).2.2
        · cases hnumber
    · exact h.follows j n ((hothers j hj).symm.trans hn)

end Reader

/-! ## The start of an issuance -/

/-- No file changes, and new rows point to none. -/
structure Grown (w w' : World) : Prop where
  files : w'.files = w.files
  rows : ∀ c' ∈ w'.certificates.rows,
    c' ∈ w.certificates.rows ∨ c'.certPath = []

theorem Grown.refl (w : World) : Grown w w := ⟨rfl, fun _ h => .inl h⟩

theorem Grown.trans (w₁ w₂ w₃ : World) (h : Grown w₁ w₂) (h' : Grown w₂ w₃) :
    Grown w₁ w₃ := by
  refine ⟨h'.files.trans h.files, fun c hc => ?_⟩
  rcases h'.rows c hc with hc | hnone
  · exact h.rows c hc
  · exact .inr hnone

theorem ensureCertificateRow_grown (o : Oracle Call) (record : Record)
    (domains : List GoString) :
    Prog.Keeps o Grown (ensureCertificateRow record domains) := by
  refine .mapError ?_ _
  refine .bind Grown.trans (.attempt (.query Grown.refl)) fun found => ?_
  split
  · exact .pure Grown.refl _
  · intro s
    refine Prog.wp_mono (createCertificate_spec o _ _ _ s) ?_
    rintro r ⟨w', n⟩ ⟨hcreated, -⟩
    cases hcreated with
    | kept => exact .refl s.state
    | burned => exact ⟨rfl, fun _ h => .inl h⟩
    | inserted =>
        refine ⟨rfl, fun c hc => ?_⟩
        rcases List.mem_append.mp hc with hc | hc
        · exact .inl hc
        · exact .inr (by rw [List.mem_singleton.mp hc])
  · exact .throw Grown.refl _

section Start

variable {env : Env} {s : State}

theorem Keeps.grown {w w' : World} {x? : Option Issuance} {d : GoString}
    {res : Resource} (h : Keeps env w none d res) (hw : w'.files = w.files) :
    Keeps env w' x? d res := by
  intro n hn _
  rw [hw]
  exact h n hn fun _ hx => nomatch hx

theorem Loader.Sound.start {x? : Option Issuance} {w' : World}
    {issued : List Resource} {i : Nat} {l : Loader}
    (h : Loader.Sound env s i l) (hnone : s.issuance = none)
    (hx : ∀ x ∈ x?, x.pos = .mkdir ∧ s.follows i ≠ some x.number)
    (hw : w'.files = s.world.files) (hissued : s.issued ⊆ issued) :
    Loader.Sound env { s with
      world := w'
      issuance := x?
      issued := issued } i l := by
  cases h with
  | idle => exact .idle
  | row k => exact .row k
  | ahead k rest d res hd hrest hres hkeeps =>
      rw [hnone] at hkeeps
      exact .ahead k rest d res hd hrest (hissued hres) (hkeeps.grown hw)
  | begun k rest got d res done names hd hnames hdone hrest hres hgot hf
      hfiles =>
      refine .begun k rest got d res done names hd hnames hdone hrest
        (hissued hres) hgot (fun x hmem hnumber => ?_) fun n hn => ?_
      · exact absurd hnumber (hx x hmem).2
      · rw [hnone] at hfiles
        rcases hfiles n hn with ⟨hcontent, _⟩ | ⟨x, hmem, _⟩
        · refine .inl ⟨(congrFun hw _).trans hcontent, fun x hmem m hm => ?_⟩
          rw [(hx x hmem).1] at hm
          cases hm
        · cases hmem
  | done k got res hres hgot => exact .done k got res (hissued hres) hgot
  | refused k err => exact .refused k err

/-- The invariant when an issuance starts or could not. -/
theorem Intact.start (h : Intact env s) (hnone : s.issuance = none)
    {w' : World} (hw : Grown s.world w') {x? : Option Issuance}
    {issued : List Resource} (hissued : s.issued ⊆ issued)
    (hlength : s.issued.length ≤ issued.length)
    (hx : ∀ x ∈ x?, x.pos = .mkdir ∧ x.res ∈ issued ∧
      x.number = s.issued.length ∧ x.number < issued.length) :
    Intact env { s with
      world := w'
      issuance := x?
      issued := issued } := by
  have hfresh : ∀ i, ∀ x ∈ x?, s.follows i ≠ some x.number := by
    intro i x hmem hnumber
    have hlt := h.follows i _ hnumber
    rw [(hx x hmem).2.2.1] at hlt
    exact Nat.lt_irrefl _ hlt
  refine ⟨?_, ?_, ?_, ?_, fun i n hn => ?_⟩
  · intro x hmem
    obtain ⟨hpos, hres, _, hlt⟩ := hx x hmem
    refine ⟨⟨fun t ht => ?_, fun f t ht => ?_, fun n _ hr => ?_,
      fun p hp => ?_⟩, hres, hlt⟩
    · rw [hpos] at ht
      cases ht
    · rw [hpos] at ht
      cases ht
    · rw [hpos] at hr
      cases hr
    · rw [hpos] at hp
      cases hp
  · intro c hc
    rcases hw.rows c hc with hc | hempty
    · rcases h.rows c hc with hno | hno | ⟨d, res, hd, hrow, hres, hkeeps⟩
      · exact .inl hno
      · exact .inr (.inl hno)
      · rw [hnone] at hkeeps
        exact .inr (.inr ⟨d, res, hd, hrow, hissued hres,
          hkeeps.grown hw.files⟩)
    · exact .inl hempty
  · intro d res hlast
    obtain ⟨hd, hkeeps⟩ := h.last d res hlast
    rw [hnone] at hkeeps
    exact ⟨hd, hkeeps.grown hw.files⟩
  · exact fun i => (h.loaders i).start hnone
      (fun x hmem => ⟨(hx x hmem).1, hfresh i x hmem⟩) hw.files hissued
  · exact Nat.lt_of_lt_of_le (h.follows i n hn) hlength

end Start

/-! ## Runs -/

theorem intact_start (env : Env) (zones : Zones) :
    Intact env (start zones) where
  issuance := fun _ hx => nomatch hx
  rows := fun _ hc => nomatch hc
  last := fun _ _ hlast => nomatch hlast
  loaders := fun _ => .idle
  follows := fun _ _ hk => nomatch hk

/-- **Step lemma.** -/
theorem intact_step {env : Env} {recordID : Int} (s : State) (a : Label)
    (s' : State) (h : Intact env s) (horderly : Orderly env s a)
    (hstep : (materials env recordID).step s a = some s') :
    Intact env s' := by
  cases a with
  | issue record res o =>
      simp only [materials] at hstep
      split at hstep
      · next hcond =>
          have hnone : s.issuance = none := Option.isNone_iff_eq_none.mp hcond.1
          have hgrown := ensureCertificateRow_grown o record
            (buildDomains record) ⟨s.world, 0⟩
          split at hstep
          · next certID sys hensure =>
              obtain rfl := Option.some.inj hstep
              rw [Prog.wp, hensure] at hgrown
              refine h.start hnone hgrown (List.subset_append_left _ _)
                (by simp) fun x hx => ?_
              obtain rfl := Option.some.inj hx
              exact ⟨rfl, by simp, rfl, by simp⟩
          · next err sys hensure =>
              obtain rfl := Option.some.inj hstep
              rw [Prog.wp, hensure] at hgrown
              exact h.start hnone hgrown (List.Subset.refl _) (Nat.le_refl _)
                fun x hx => by rw [hnone] at hx; cases hx
      · cases hstep
  | writer o =>
      simp only [materials] at hstep
      split at hstep
      · cases hstep
      · next x hx =>
          have hwrites := next_writes env o s.world x.record x.certID x.res
            x.pos
          split at hstep
          · next y sys hnext =>
              obtain rfl := Option.some.inj hstep
              rw [Prog.wp, hnext] at hwrites
              exact h.writes hx horderly (hwrites y rfl)
          · cases hstep
  | load i k =>
      simp only [materials] at hstep
      split at hstep
      · obtain rfl := Option.some.inj hstep
        refine ⟨h.issuance, h.rows, h.last, fun j => ?_, h.follows⟩
        by_cases hj : j = i
        · subst hj
          change Loader.Sound env _ j (s.loaders.set j (.row k) j)
          rw [Pool.set_self]
          exact .row k
        · change Loader.Sound env _ j (s.loaders.set i (.row k) j)
          rw [Pool.set_ne _ _ hj]
          exact (h.loaders j).congr rfl rfl rfl rfl
      · cases hstep
  | reader i o =>
      simp only [materials] at hstep
      have hreads := next_reads o ⟨s.world, 0⟩ recordID (s.loaders i)
      split at hstep
      · next l sys hnext =>
          obtain rfl := Option.some.inj hstep
          rw [Prog.wp, hnext] at hreads
          obtain ⟨hworld, hread⟩ := hreads
          rw [show sys.state = s.world from hworld]
          exact h.reads horderly (hread l rfl)
      · cases hstep
  | others w =>
      obtain rfl := Option.some.inj hstep
      refine ⟨fun x hx => ?_, h.rows, h.last,
        fun i => (h.loaders i).congr rfl rfl rfl rfl, h.follows⟩
      obtain ⟨hsound, hissued⟩ := h.issuance x hx
      exact ⟨⟨hsound.todo, hsound.writing, hsound.written, hsound.paths⟩,
        hissued⟩

/-- **Certificate material is never mixed**, in a run whose steps are orderly:
whoever reads the files without error gets those of one issuance, and with no
issuance under way the files are those of the last successful one. -/
theorem certificate_material_never_mixed (env : Env) (recordID : Int)
    (zones : Zones) (as : List Label) (s : State)
    (hrun : (materials env recordID).run (start zones) as = some s)
    (horderly : (materials env recordID).Along (Orderly env) (start zones)
      as) :
    (∀ i k got, s.loaders i = .returned k (.ok got) →
        ∃ res ∈ s.issued, got = k.names.map (fileContent res)) ∧
      (s.issuance = none → ∀ d res, s.last = some (d, res) →
        ∀ n ∈ fileNames,
          s.world.files (pathIn d n) = some (fileContent res n)) := by
  have h : Intact env s := Machine.invariant_along intact_step as
    (start zones) s (intact_start env zones) horderly hrun
  refine ⟨fun i k got hl => ?_, fun hnone d res hlast => ?_⟩
  · have hsound := h.loaders i
    rw [hl] at hsound
    cases hsound with
    | done _ _ res hres hgot => exact ⟨res, hres, hgot⟩
  · exact (h.last d res hlast).2.holds fun x hx => by
      rw [hnone] at hx
      cases hx

/-! ## Two runs -/

/-- A step on one record with one reader. -/
private inductive Turn where
  | save
  | issue (res : Resource)
  | writer (fault : Fault)
  | load (k : Kind)
  | reader

private def savedRecord (id : Int) : Record :=
  ⟨id, "token", 7, "example.org", "www", 60, none, purposeCert, false, none⟩

private def savedWorld : World :=
  { World.init fun _ _ => none with
    records := Table.empty.insert savedRecord }

private def Turn.label : Turn → Label
  | .save => .others savedWorld
  | .issue res => .issue (savedRecord 1) res .quiet
  | .writer fault => .writer fun _ _ => fault
  | .load k => .load 0 k
  | .reader => .reader 0 .quiet

private def samples : Machine State Turn :=
  (materials Env.sample 1).comap Turn.label

private def fresh : State := start fun _ _ => none

private def firstCert : Resource := ⟨"first", "issuer", "first key"⟩
private def secondCert : Resource := ⟨"second", "issuer", "second key"⟩

/-- An issuance that succeeds. -/
private def issued (res : Resource) : List Turn :=
  .issue res :: List.replicate 11 (.writer .none)

/-- A task reads the files. -/
private def loaded : List Turn := .load .task :: List.replicate 6 .reader

/-- An issuance whose private key could not be opened for writing. -/
private def brokenOff (res : Resource) : List Turn :=
  .issue res :: List.replicate 7 (.writer .none) ++
    [.writer .fails, .writer .none]

/-- Readers from 1 on are idle. -/
private def SpareLoaders (s : State) : Prop := ∀ i, s.loaders (i + 1) = .idle

/-- Nothing fails, and reader and issuance do not meet. -/
private def Turn.Apart (s : State) : Turn → Prop
  | .writer fault => fault = .none ∧ s.loaders 0 = .idle ∧
      ∀ x ∈ s.issuance, match x.pos with
        | .persist p => p.rejected = false
        | _ => True
  | .reader => s.issuance.isNone = true
  | _ => True

private instance (s : State) (t : Turn) : Decidable (t.Apart s) :=
  match t with
  | .writer _ =>
      have : ∀ x : Issuance, Decidable (match x.pos with
          | .persist p => p.rejected = false
          | _ => True) := fun x =>
        match x.pos with
        | .persist _ => inferInstanceAs (Decidable (_ = _))
        | .mkdir => .isTrue trivial
        | .files _ => .isTrue trivial
        | .write _ _ => .isTrue trivial
        | .failed _ => .isTrue trivial
      inferInstanceAs (Decidable (_ ∧ _ ∧ ∀ x ∈ s.issuance, _))
  | .reader => inferInstanceAs (Decidable (_ = _))
  | .save => .isTrue trivial
  | .issue _ => .isTrue trivial
  | .load _ => .isTrue trivial

private theorem spareLoaders_step (s : State) (t : Turn) (s' : State)
    (h : SpareLoaders s) (_ : t.Apart s)
    (hstep : samples.step s t = some s') : SpareLoaders s' := by
  have hset : ∀ l, SpareLoaders { s with loaders := s.loaders.set 0 l } :=
    fun l i => (Pool.set_ne s.loaders l (Nat.succ_ne_zero i)).trans (h i)
  change (materials Env.sample 1).step s t.label = some s' at hstep
  cases t with
  | save =>
      obtain rfl := Option.some.inj hstep
      exact h
  | issue res =>
      simp only [materials, Turn.label] at hstep
      split at hstep
      · split at hstep <;> (obtain rfl := Option.some.inj hstep; exact h)
      · cases hstep
  | writer fault =>
      simp only [materials, Turn.label] at hstep
      split at hstep
      · cases hstep
      · split at hstep
        · next y sys _ =>
            obtain rfl := Option.some.inj hstep
            rcases y with pos | err | ⟨⟩ <;> exact h
        · cases hstep
  | load k =>
      simp only [materials, Turn.label] at hstep
      split at hstep
      · obtain rfl := Option.some.inj hstep
        exact hset (.row k)
      · cases hstep
  | reader =>
      simp only [materials, Turn.label] at hstep
      split at hstep
      · next l sys _ =>
          obtain rfl := Option.some.inj hstep
          exact hset l
      · cases hstep

private theorem orderly_of_apart (s : State) (t : Turn)
    (h : SpareLoaders s ∧ t.Apart s) : Orderly Env.sample s t.label := by
  obtain ⟨hspare, hapart⟩ := h
  cases t with
  | writer fault =>
      obtain ⟨rfl, hidle, hpersist⟩ := hapart
      intro x hx
      refine ⟨?_, fun htears => ?_, fun hlate => ?_⟩
      · rintro f todo _ _ (_ | i) ⟨k, rest, got, hl, _⟩
        · rw [hidle] at hl
          cases hl
        · rw [hspare i] at hl
          cases hl
      · generalize x.pos = pos at htears
        rcases pos with _ | ⟨_ | ⟨f, todo⟩⟩ | _ | _ | _
        all_goals simp [Tears] at htears
      · have hrejected := hpersist x hx
        generalize x.pos = pos at hlate hrejected
        rcases pos with _ | ⟨_ | ⟨f, todo⟩⟩ | _ | p | _
        all_goals first
          | exact hlate.elim
          | obtain ⟨cause, hcause⟩ := hlate
            cases hcause
          | simp [FailsLate, hrejected] at hlate
  | reader =>
      intro k f rest got _ x hx
      rw [Option.isNone_iff_eq_none.mp hapart] at hx
      cases hx
  | save => trivial
  | issue res => trivial
  | load k => trivial

/-- A first issuance and its renewal, then a task's load of the files. -/
private def renewed : List Turn :=
  [.save] ++ issued firstCert ++ issued secondCert ++ loaded

/-- A renewal that cannot open the private key, then a task's load. -/
private def brokenRenewal : List Turn :=
  [.save] ++ issued firstCert ++ brokenOff secondCert ++ loaded

theorem certificate_material_never_mixed_renewed :
    ∃ s, (materials Env.sample 1).run fresh
        (renewed.map Turn.label) = some s ∧
      s.loaders 0 = .returned .task (.ok
        (fileNames.map (fileContent secondCert))) ∧
      ∃ res ∈ s.issued, fileNames.map (fileContent secondCert) =
        fileNames.map (fileContent res) := by
  obtain ⟨s, hrun⟩ := Option.isSome_iff_exists.mp
    (show (samples.run fresh renewed).isSome = true by decide +kernel)
  have hend : ∀ s ∈ samples.run fresh renewed, s.loaders 0 = .returned .task (.ok
        (fileNames.map (fileContent secondCert))) := by
    decide +kernel
  have hapart := Machine.along_invariant spareLoaders_step renewed fresh
    (fun _ => rfl) (by decide +kernel)
  have horderly := Machine.along_comap _ Turn.label _ fresh
    (Machine.along_mono _ orderly_of_apart _ fresh hapart)
  have hrun' := (Machine.run_comap _ Turn.label fresh _).symm.trans hrun
  exact ⟨s, hrun', hend s hrun, (certificate_material_never_mixed Env.sample 1
    _ _ s hrun' horderly).1 0 .task _ (hend s hrun)⟩

/-- A renewal that cannot open the private key leaves its certificate beside
the old key, and a task reads them without an error. -/
theorem failed_renewal_mixes_material :
    ∃ s got, (materials Env.sample 1).run fresh
        (brokenRenewal.map Turn.label) = some s ∧
      s.loaders 0 = .returned .task (.ok got) ∧
      (∀ res ∈ s.issued, got ≠ fileNames.map (fileContent res)) ∧
      s.issuance.isNone = true ∧
      ∃ d, s.last = some (d, firstCert) ∧
        ∃ n ∈ fileNames, s.world.files (pathIn d n) ≠
          some (fileContent firstCert n) := by
  obtain ⟨s, hrun⟩ := Option.isSome_iff_exists.mp
    (show (samples.run fresh brokenRenewal).isSome = true by decide +kernel)
  have hend : ∀ s ∈ samples.run fresh brokenRenewal,
      s.loaders 0 = .returned .task (.ok ["second", "issuer",
        lit "second" ++ lit "issuer", "first key"]) ∧
      (∀ res ∈ s.issued, (["second", "issuer",
        lit "second" ++ lit "issuer", "first key"] : List GoString) ≠
          fileNames.map (fileContent res)) ∧
      s.issuance.isNone = true ∧
      s.last = some (certificateDir Env.sample (savedRecord 1), firstCert) ∧
      s.world.files (pathIn (certificateDir Env.sample (savedRecord 1))
        certPem) ≠ some (fileContent firstCert certPem) := by
    decide +kernel
  obtain ⟨hloader, hmixed, hnone, hlast, hfile⟩ := hend s hrun
  exact ⟨s, _, (Machine.run_comap _ Turn.label fresh _).symm.trans hrun,
    hloader, hmixed, hnone, _, hlast, certPem, by decide, hfile⟩

end Hdns.Ports.CertificateMaterial

import Hdns.Verified.GoPath
import Hdns.Ports.Certificates

/-!
# Writing and reading certificate files

`writeCertificateFiles` overwrites the four files of a record in place, one
after another, and `runIssuance` parses the leaf and updates the row after
that.  `loadCertificateMaterial` and `buildPKCS12Archive` read the row, and
then one file after another.  This module cuts both sides into the statements
between which the other side can run.

## Main results

* `Writing.runFor_eq_storeFiles` — the statements of a writer, one after the
  other, are `storeFiles` and the update of the row.
* `Loader.runFor_task`, `Loader.runFor_archive` — the same for the readers.
* `next_writes` — what a statement of a writer does.
-/

namespace Hdns.Ports.CertificateFiles

open Hdns.Verified
open Hdns.Verified.GoString
open Hdns.Ports.Schema
open Hdns.Ports.Tasks
open Hdns.Ports.Service
open Hdns.Ports.Names
open Hdns.Ports.Records
open Hdns.Ports.Certificates

/-! ## The files of a directory -/

/-- The names of the files of an issuance, in the order they are written. -/
def fileNames : List GoString :=
  [certPem, chainPem, fullchainPem, privkeyPem]

/-- A file of a certificate directory. -/
def pathIn (d name : GoString) : GoString := GoPath.join [d, name]

/-- What an issuance writes to the file of this name. -/
def fileContent (res : Resource) (name : GoString) : GoString :=
  ((certificateFiles res).lookup name).getD []

theorem map_certificateFiles (res : Resource) :
    (certificateFiles res).map (·.1) = fileNames := rfl

theorem fileContent_of_mem {res : Resource} {f : GoString × GoString}
    (h : f ∈ certificateFiles res) : fileContent res f.1 = f.2 := by
  simp only [certificateFiles, List.mem_cons, List.not_mem_nil, or_false] at h
  rcases h with rfl | rfl | rfl | rfl <;> rfl

theorem fileNames_plain : ∀ n ∈ fileNames, GoPath.Plain n := by
  have h : ∀ n ∈ fileNames, n ≠ [] ∧ n ≠ GoPath.dot ∧ n ≠ GoPath.dotDot ∧
      GoPath.slash ∉ n := by decide
  exact fun n hn => ⟨(h n hn).1, (h n hn).2.1, (h n hn).2.2.1, (h n hn).2.2.2⟩

theorem fileNames_nodup : fileNames.Nodup := by decide

/-- Files of clean directories are told apart by directory and name. -/
theorem pathIn_inj {d d' n n' : GoString} (hd : GoPath.clean d = d)
    (hd' : GoPath.clean d' = d') (hn : n ∈ fileNames) (hn' : n' ∈ fileNames) :
    pathIn d n = pathIn d' n' ↔ d = d' ∧ n = n' :=
  GoPath.join_inj hd hd' (fileNames_plain n hn) (fileNames_plain n' hn')

theorem certificateDir_clean (env : Env) (record : Record) :
    GoPath.clean (certificateDir env record) = certificateDir env record := by
  by_cases hpath : env.dataPath = []
  · simp [certificateDir, GoPath.join, hpath, show lit "certs" ≠ [] by decide]
  · exact GoPath.clean_join _ hpath

/-! ## Reading a certificate -/

/-- `os.ReadFile`. -/
def readFile (path : GoString) : Handler GoString :=
  .query .readFile (.external "read: input/output error") fun w =>
    match w.files path with
    | some content => .ok content
    | none => .error (.external "open: no such file or directory")

/-- `material`: the four PEM files produced by a certificate issuance. -/
structure Material where
  cert : GoString
  chain : GoString
  fullchain : GoString
  key : GoString
  deriving DecidableEq, Repr

/-- The closure `readFile` of `loadCertificateMaterial`. -/
def readIn (dir name : GoString) : Handler GoString :=
  (readFile (pathIn dir name)).mapError
    (.because (lit "failed to read " ++ name))

/-- `loadCertificateMaterial`. -/
def loadCertificateMaterial (recordID : Int) : Handler Material := do
  let cert ← issuedRow recordID
  let dir := GoPath.dir cert.certPath
  let leaf ← readIn dir certPem
  let chain ← readIn dir chainPem
  let fullchain ← readIn dir fullchainPem
  let key ← readIn dir privkeyPem
  pure ⟨leaf, chain, fullchain, key⟩

/-- The files `buildPKCS12Archive` reads. -/
def readArchiveFiles (fullchainPath keyPath : GoString) :
    Handler (GoString × GoString) := do
  let fullchain ← readFile fullchainPath
  let privKey ← readFile keyPath
  pure (fullchain, privKey)

/-- `buildPKCS12Archive`; `encode` is the parsing and encoding of what was
read. -/
def buildPKCS12Archive
    (encode : GoString → GoString → Except GoError GoString)
    (fullchainPath keyPath : GoString) : Handler GoString := do
  let files ← readArchiveFiles fullchainPath keyPath
  Prog.ofExcept (encode files.1 files.2)

/-- The error a failed lookup of the download handler answers with. -/
def lookupError : GoError → GoError
  | .noRows => .newError "certificate not found"
  | _ => .newError "failed to load certificate"

/-- The row of `CertificateDownloadHandler`. -/
def downloadRow (recordID : Int) : Handler Certificate := do
  let cert ← Prog.mapError lookupError do
    let _ ← getRecord recordID
    getCertificateByRecord recordID
  if cert.certPath = [] ∨ cert.keyPath = [] then
    Prog.throw (.newError "certificate has no downloadable artifacts")
  else pure cert

/-- `CertificateDownloadHandler` for the artifact `pkcs12`. -/
def downloadPKCS12 (encode : GoString → GoString → Except GoError GoString)
    (recordID : Int) : Handler GoString := do
  let cert ← downloadRow recordID
  (buildPKCS12Archive encode cert.certPath cert.keyPath).mapError fun _ =>
    .newError "failed to read artifact"

/-! ## The statements of a reader -/

/-- Who reads the files. -/
inductive Kind where
  /-- `loadCertificateMaterial`, for a task. -/
  | task
  /-- `buildPKCS12Archive`, for a download. -/
  | archive
  deriving DecidableEq

/-- The names of the files, in the order they are read. -/
def Kind.names : Kind → List GoString
  | .task => fileNames
  | .archive => [fullchainPem, privkeyPem]

/-- The files by name and path. -/
def Kind.plan (c : Certificate) : Kind → List (GoString × GoString)
  | .task => fileNames.map fun n => (n, pathIn (GoPath.dir c.certPath) n)
  | .archive => [(fullchainPem, c.certPath), (privkeyPem, c.keyPath)]

/-- The row lookup. -/
def Kind.row (recordID : Int) : Kind → Handler Certificate
  | .task => issuedRow recordID
  | .archive => downloadRow recordID

/-- The error of a read that failed. -/
def Kind.readError (name : GoString) (err : GoError) : Kind → GoError
  | .task => .because (lit "failed to read " ++ name) err
  | .archive => .newError "failed to read artifact"

/-- Where a reader stands. -/
inductive Loader where
  | idle
  /-- Before the lookup of the row. -/
  | row (k : Kind)
  /-- Before the first of `rest` is read, with the contents read so far. -/
  | reading (k : Kind) (rest : List (GoString × GoString))
      (got : List GoString)
  | returned (k : Kind) (r : Except GoError (List GoString))
  deriving DecidableEq

/-- One statement of a reader. -/
def Loader.next (recordID : Int) : Loader → Handler Loader
  | .row k => do
      match ← (k.row recordID).attempt with
      | .ok cert => pure (.reading k (k.plan cert) [])
      | .error err => pure (.returned k (.error err))
  | .reading k [] got => pure (.returned k (.ok got))
  | .reading k (f :: rest) got => do
      match ← (readFile f.2).attempt with
      | .ok content => pure (.reading k rest (got ++ [content]))
      | .error err => pure (.returned k (.error (k.readError f.1 err)))
  | l => pure l

/-- `n` statements of a reader, one after the other. -/
def Loader.runFor (recordID : Int) : Nat → Loader → Handler Loader
  | 0, l => pure l
  | n + 1, l => do
      let l ← l.next recordID
      l.runFor recordID n

section ReaderRefinement

variable (recordID : Int)

private theorem runFor_returned (k : Kind)
    (r : Except GoError (List GoString)) :
    ∀ n, (Loader.returned k r).runFor recordID n = pure (.returned k r) := by
  intro n
  induction n with
  | zero => rfl
  | succ n ih => exact ih

/-- The rest of the reads of `loadCertificateMaterial`. -/
private def readAll (k : Kind) :
    List (GoString × GoString) → List GoString → Handler (List GoString)
  | [], got => pure got
  | f :: rest, got => do
      let content ← (readFile f.2).mapError (k.readError f.1)
      readAll k rest (got ++ [content])

private theorem runFor_reading (k : Kind) :
    ∀ (rest : List (GoString × GoString)) (got : List GoString) (n : Nat),
      (Loader.reading k rest got).runFor recordID (n + rest.length + 1) = (do
        let r ← (readAll k rest got).attempt
        pure (.returned k r)) := by
  intro rest
  induction rest with
  | nil =>
      intro got n
      exact runFor_returned recordID k _ n
  | cons f rest ih =>
      intro got n
      rw [List.length_cons, Loader.runFor, Loader.next, readAll,
        Prog.attempt_bind, Prog.attempt_mapError]
      simp only [bind_assoc, pure_bind]
      refine bind_congr fun r => ?_
      cases r with
      | error err => exact runFor_returned recordID k _ _
      | ok content => exact ih (got ++ [content]) n

/-- A reader that nothing interrupts. -/
private theorem runFor_row (k : Kind) (n : Nat)
    (hn : ∀ c, (k.plan c).length + 1 ≤ n) :
    (Loader.row k).runFor recordID (n + 1) = (do
      let r ← (do
        let cert ← k.row recordID
        readAll k (k.plan cert) []).attempt
      pure (.returned k r)) := by
  rw [Loader.runFor, Loader.next, Prog.attempt_bind]
  simp only [bind_assoc]
  refine bind_congr fun r => ?_
  cases r with
  | error err => exact runFor_returned recordID k _ n
  | ok cert =>
      obtain ⟨m, rfl⟩ := Nat.exists_eq_add_of_le' (hn cert)
      exact runFor_reading recordID k (k.plan cert) [] m

/-- The contents, in the order they are read. -/
def Material.contents (m : Material) : List GoString :=
  [m.cert, m.chain, m.fullchain, m.key]

private theorem attempt_map {α β : Type} (p : Handler α) (f : α → β) :
    (p >>= fun a => pure (f a)).attempt =
      p.attempt >>= fun r => pure (r.map f) := by
  rw [Prog.attempt_bind]
  refine bind_congr fun r => ?_
  cases r <;> rfl

/-- **Refinement.**  A task's reader that nothing interrupts is
`loadCertificateMaterial`. -/
theorem Loader.runFor_task :
    (Loader.row .task).runFor recordID 6 = (do
      let r ← (loadCertificateMaterial recordID).attempt
      pure (.returned .task (r.map Material.contents))) := by
  have hread : (do
      let cert ← Kind.row recordID .task
      readAll .task (Kind.plan cert .task) []) =
        loadCertificateMaterial recordID >>= fun m => pure m.contents := by
    simp only [loadCertificateMaterial, bind_assoc]
    rfl
  rw [runFor_row recordID .task 5 (fun _ => Nat.le_refl 5), hread, attempt_map,
    bind_assoc]
  rfl

/-- **Refinement.**  A reader for a download that nothing interrupts reads what
`buildPKCS12Archive` encodes. -/
theorem Loader.runFor_archive :
    (Loader.row .archive).runFor recordID 4 = (do
      let r ← (do
        let cert ← downloadRow recordID
        (readArchiveFiles cert.certPath cert.keyPath).mapError fun _ =>
          .newError "failed to read artifact").attempt
      pure (.returned .archive (r.map fun files => [files.1, files.2]))) := by
  have hread : (do
      let cert ← Kind.row recordID .archive
      readAll .archive (Kind.plan cert .archive) []) = (do
        let cert ← downloadRow recordID
        (readArchiveFiles cert.certPath cert.keyPath).mapError fun _ =>
          .newError "failed to read artifact") >>= fun files =>
            pure [files.1, files.2] := by
    simp only [readArchiveFiles, Prog.mapError_bind, bind_assoc]
    rfl
  rw [runFor_row recordID .archive 3 (fun _ => Nat.le_refl 3), hread,
    attempt_map, bind_assoc]
  rfl

end ReaderRefinement

/-! ## The statements of a writer -/

/-- Where an issuance stands that has obtained its certificate. -/
inductive Writing where
  /-- Before `os.MkdirAll`. -/
  | mkdir
  /-- Before the first of `todo` is opened; with none left, before the leaf is
  parsed. -/
  | files (todo : List (GoString × GoString))
  /-- The file was truncated, before its content is written. -/
  | write (f : GoString × GoString) (todo : List (GoString × GoString))
  /-- Before `UpdateCertificate`. -/
  | persist (p : CertificateParams)
  /-- Before `setCertificateFailed`. -/
  | failed (cause : GoError)

/-- The error of a file that could not be written. -/
def writeError (name : GoString) : GoError → GoError :=
  .because (lit "failed to write " ++ name)

/-- One statement of a writer: what comes next, or the result. -/
def Writing.next (env : Env) (record : Record) (certID : Int)
    (res : Resource) : Writing → Handler (Writing ⊕ Except GoError Unit)
  | .mkdir => do
      match ← (mkdirAll.mapError (.because
        "failed to create certificate directory")).attempt with
      | .ok () => pure (.inl (.files (certificateFiles res)))
      | .error cause => pure (.inl (.failed cause))
  | .files (f :: todo) => do
      match ← (openFile (pathIn (certificateDir env record) f.1)).attempt with
      | .ok () => pure (.inl (.write f todo))
      | .error err => pure (.inl (.failed (writeError f.1 err)))
  | .write f todo => do
      match ← (writeContent (pathIn (certificateDir env record) f.1)
        f.2).attempt with
      | .ok () => pure (.inl (.files todo))
      | .error err => pure (.inl (.failed (writeError f.1 err)))
  | .files [] =>
      match parseLeafCertificate env res.certificate with
      | .ok leaf =>
          pure (.inl (.persist (issuedParams (buildDomains record) leaf
            (pathIn (certificateDir env record) fullchainPem)
            (pathIn (certificateDir env record) privkeyPem))))
      | .error cause => pure (.inl (.failed cause))
  | .persist p => do
      match ← (persistCertificate certID p).attempt with
      | .ok () => pure (.inr (.ok ()))
      | .error cause => pure (.inl (.failed cause))
  | .failed cause => do
      setCertificateFailed env certID cause
      pure (.inr (.error cause))

/-- At most `n` statements of a writer, one after the other. -/
def Writing.runFor (env : Env) (record : Record) (certID : Int)
    (res : Resource) :
    Nat → Writing ⊕ Except GoError Unit →
      Handler (Writing ⊕ Except GoError Unit)
  | n + 1, .inl x => do
      let x ← x.next env record certID res
      Writing.runFor env record certID res n x
  | _, x => pure x

section WriterRefinement

variable (env : Env) (record : Record) (certID : Int) (res : Resource)

/-- The end of a writer whose outcome `p` decides. -/
def closing (p : Handler Unit) :
    Handler (Writing ⊕ Except GoError Unit) := do
  match ← p.attempt with
  | .ok () => pure (.inr (.ok ()))
  | .error cause => do
      setCertificateFailed env certID cause
      pure (.inr (.error cause))

private theorem runFor_inr (r : Except GoError Unit) (n : Nat) :
    Writing.runFor env record certID res n (.inr r) = pure (.inr r) := by
  cases n <;> rfl

private theorem runFor_failed (cause : GoError) (n : Nat) :
    Writing.runFor env record certID res (n + 1) (.inl (.failed cause)) =
      closing env certID (Prog.throw cause) := by
  simp only [Writing.runFor, Writing.next, closing, bind_assoc, pure_bind,
    runFor_inr, Prog.attempt_throw]

private theorem runFor_persist (p : CertificateParams) (n : Nat) :
    Writing.runFor env record certID res (n + 2) (.inl (.persist p)) =
      closing env certID (persistCertificate certID p) := by
  rw [Writing.runFor, Writing.next, closing, bind_assoc]
  refine bind_congr fun r => ?_
  cases r with
  | error cause => exact runFor_failed env record certID res cause n
  | ok _ => exact runFor_inr env record certID res (.ok ()) (n + 1)

/-- The columns to store, once the files are written. -/
private def parseLeaf : Handler CertificateParams := do
  let leaf ← Prog.ofExcept (parseLeafCertificate env res.certificate)
  pure (issuedParams (buildDomains record) leaf
    (pathIn (certificateDir env record) fullchainPem)
    (pathIn (certificateDir env record) privkeyPem))

private theorem runFor_parse (n : Nat) :
    Writing.runFor env record certID res (n + 3) (.inl (.files [])) =
      closing env certID (parseLeaf env record res >>=
        persistCertificate certID) := by
  rw [Writing.runFor, Writing.next, closing, parseLeaf]
  cases hleaf : parseLeafCertificate env res.certificate with
  | error cause => exact runFor_failed env record certID res cause (n + 1)
  | ok leaf => exact runFor_persist env record certID res _ n

private theorem closing_bind {α : Type} (p : Handler α)
    (f : α → Handler Unit) :
    closing env certID (p >>= f) = (do
      match ← p.attempt with
      | .ok a => closing env certID (f a)
      | .error cause => closing env certID (Prog.throw cause)) := by
  rw [closing, Prog.attempt_bind, bind_assoc]
  refine bind_congr fun r => ?_
  cases r <;> rfl

/-- The files that are left, the leaf and the row. -/
private theorem runFor_files :
    ∀ (todo : List (GoString × GoString)) (n : Nat),
      Writing.runFor env record certID res (n + 2 * todo.length + 3)
          (.inl (.files todo)) =
        closing env certID (do
          todo.forM (writeCertificateFile (certificateDir env record))
          let p ← parseLeaf env record res
          persistCertificate certID p) := by
  intro todo
  induction todo with
  | nil => exact fun n => runFor_parse env record certID res n
  | cons f todo ih =>
      intro n
      have hfile : writeCertificateFile (certificateDir env record) f = (do
          (openFile (pathIn (certificateDir env record) f.1)).mapError
            (writeError f.1)
          (writeContent (pathIn (certificateDir env record) f.1) f.2).mapError
            (writeError f.1)) :=
        Prog.mapError_bind _ _ _
      have hcons : ((f :: todo).forM
          (writeCertificateFile (certificateDir env record)) : Handler Unit) =
            writeCertificateFile (certificateDir env record) f >>= fun _ =>
              todo.forM (writeCertificateFile (certificateDir env record)) :=
        rfl
      rw [hcons, hfile, bind_assoc, bind_assoc, closing_bind, List.length_cons,
        Nat.mul_succ, Writing.runFor, Writing.next, Prog.attempt_mapError]
      simp only [bind_assoc, pure_bind]
      refine bind_congr fun opened => ?_
      cases opened with
      | error err => exact runFor_failed env record certID res _ _
      | ok _ =>
          change Writing.runFor env record certID res
            ((n + 2 * todo.length + 3) + 1) (.inl (.write f todo)) =
            closing env certID _
          rw [closing_bind, Writing.runFor, Writing.next,
            Prog.attempt_mapError]
          simp only [bind_assoc, pure_bind]
          refine bind_congr fun written => ?_
          cases written with
          | error err => exact runFor_failed env record certID res _ _
          | ok _ => exact ih n

/-- **Refinement.**  A writer that nothing interrupts is `storeFiles` and the
update of the row, with `setCertificateFailed` when something fails. -/
theorem Writing.runFor_eq_storeFiles :
    Writing.runFor env record certID res 12 (.inl .mkdir) =
      closing env certID (storeFiles env record res >>=
        persistCertificate certID) := by
  have hstore : storeFiles env record res >>= persistCertificate certID =
      mkdirAll.mapError (.because "failed to create certificate directory") >>=
        fun _ => (do
          (certificateFiles res).forM
            (writeCertificateFile (certificateDir env record))
          let p ← parseLeaf env record res
          persistCertificate certID p) := by
    simp only [storeFiles, writeCertificateFiles, parseLeaf, bind_assoc,
      pure_bind]
    rfl
  rw [hstore, closing_bind, Writing.runFor, Writing.next, bind_assoc]
  refine bind_congr fun made => ?_
  cases made with
  | error err => exact runFor_failed env record certID res _ _
  | ok _ => exact runFor_files env record certID res (certificateFiles res) 0

end WriterRefinement

/-! ## What a statement of a writer does -/

/-- The paths of every row were stored before, or are those of `p`. -/
def RowsFrom (p : CertificateParams) (w w' : World) : Prop :=
  ∀ c' ∈ w'.certificates.rows,
    (c'.certPath = p.certPath ∧ c'.keyPath = p.keyPath) ∨
      ∃ c ∈ w.certificates.rows,
        c.certPath = c'.certPath ∧ c.keyPath = c'.keyPath

/-- The paths of every row were stored before. -/
def RowsKept (w w' : World) : Prop :=
  ∀ c' ∈ w'.certificates.rows, ∃ c ∈ w.certificates.rows,
    c.certPath = c'.certPath ∧ c.keyPath = c'.keyPath

/-- **What a statement of a writer does**, by where it stands and how it goes
on. -/
inductive Writes (env : Env) (o : Oracle Call) (record : Record)
    (res : Resource) (w w' : World) :
    Writing → Writing ⊕ Except GoError Unit → Prop where
  | made (hw : w' = w) :
      Writes env o record res w w' .mkdir (.inl (.files (certificateFiles res)))
  | unmade (cause : GoError) (hw : w' = w) :
      Writes env o record res w w' .mkdir (.inl (.failed cause))
  | opened (f : GoString × GoString) (todo : List (GoString × GoString))
      (ho : o 0 .openFile = .none)
      (hw : w' = setFile (pathIn (certificateDir env record) f.1) [] w) :
      Writes env o record res w w' (.files (f :: todo)) (.inl (.write f todo))
  | unopened (f : GoString × GoString) (todo : List (GoString × GoString))
      (cause : GoError) (ho : o 0 .openFile = .fails) (hw : w' = w) :
      Writes env o record res w w' (.files (f :: todo)) (.inl (.failed cause))
  | truncated (f : GoString × GoString) (todo : List (GoString × GoString))
      (cause : GoError) (ho : o 0 .openFile = .lostReply)
      (hw : w' = setFile (pathIn (certificateDir env record) f.1) [] w) :
      Writes env o record res w w' (.files (f :: todo)) (.inl (.failed cause))
  | written (f : GoString × GoString) (todo : List (GoString × GoString))
      (hw : w' = setFile (pathIn (certificateDir env record) f.1) f.2 w) :
      Writes env o record res w w' (.write f todo) (.inl (.files todo))
  | unwritten (f : GoString × GoString) (todo : List (GoString × GoString))
      (cause : GoError) (ho : o 0 .writeFile ≠ .none)
      (hw : w' = w ∨
        w' = setFile (pathIn (certificateDir env record) f.1) f.2 w) :
      Writes env o record res w w' (.write f todo) (.inl (.failed cause))
  | parsed (p : CertificateParams)
      (hcert : p.certPath = pathIn (certificateDir env record) fullchainPem)
      (hkey : p.keyPath = pathIn (certificateDir env record) privkeyPem)
      (hw : w' = w) :
      Writes env o record res w w' (.files []) (.inl (.persist p))
  | unparsed (cause : GoError)
      (hparse : parseLeafCertificate env res.certificate = .error cause)
      (hw : w' = w) :
      Writes env o record res w w' (.files []) (.inl (.failed cause))
  | persisted (p : CertificateParams) (hfiles : w'.files = w.files)
      (hrows : RowsFrom p w w') :
      Writes env o record res w w' (.persist p) (.inr (.ok ()))
  | unpersisted (p : CertificateParams) (cause : GoError)
      (ho : o 0 .updateCertificate ≠ .none ∨ p.rejected = true)
      (hfiles : w'.files = w.files) (hrows : RowsFrom p w w') :
      Writes env o record res w w' (.persist p) (.inl (.failed cause))
  | closed (cause : GoError) (hfiles : w'.files = w.files)
      (hrows : RowsKept w w') :
      Writes env o record res w w' (.failed cause) (.inr (.error cause))

theorem rowsFrom_refl (p : CertificateParams) (w : World) : RowsFrom p w w :=
  fun c hc => .inr ⟨c, hc, rfl, rfl⟩

theorem rowsKept_refl (w : World) : RowsKept w w :=
  fun c hc => ⟨c, hc, rfl, rfl⟩

theorem rowsFrom_updateWhere (q : Certificate → Bool) (p : CertificateParams)
    (w : World) :
    RowsFrom p w { w with
      certificates := w.certificates.updateWhere q p.apply } := by
  intro c' hc'
  obtain ⟨c, hc, rfl⟩ := List.mem_map.mp hc'
  split
  · exact .inl ⟨rfl, rfl⟩
  · exact .inr ⟨c, hc, rfl, rfl⟩

private theorem openFile_writes (o : Oracle Call) (w : World)
    (path : GoString) :
    (openFile path).wp o ⟨w, 0⟩ fun r t =>
      match r with
      | .ok _ => o 0 .openFile = .none ∧ t.state = setFile path [] w
      | .error _ =>
          (o 0 .openFile = .fails ∧ t.state = w) ∨
            (o 0 .openFile = .lostReply ∧ t.state = setFile path [] w) := by
  unfold openFile Prog.wp Prog.call
  cases ho : o 0 .openFile with
  | none => exact ⟨rfl, rfl⟩
  | fails => exact .inl ⟨rfl, rfl⟩
  | lostReply => exact .inr ⟨rfl, rfl⟩

private theorem writeContent_writes (o : Oracle Call) (w : World)
    (path content : GoString) :
    (writeContent path content).wp o ⟨w, 0⟩ fun r t =>
      match r with
      | .ok _ => t.state = setFile path content w
      | .error _ => o 0 .writeFile ≠ .none ∧
          (t.state = w ∨ t.state = setFile path content w) := by
  unfold writeContent Prog.wp Prog.call
  cases ho : o 0 .writeFile with
  | none => rfl
  | fails => exact ⟨Fault.noConfusion, .inl rfl⟩
  | lostReply => exact ⟨Fault.noConfusion, .inr rfl⟩

private theorem updateCertificate_writes (o : Oracle Call) (w : World)
    (certID : Int) (p : CertificateParams) :
    (updateCertificate certID p).wp o ⟨w, 0⟩ fun r t =>
      t.state.files = w.files ∧ RowsFrom p w t.state ∧
        (r = .ok () ∨ o 0 .updateCertificate ≠ .none ∨
          p.rejected = true) := by
  have hupdate := rowsFrom_updateWhere (fun c => c.id == certID) p w
  have hsame := rowsFrom_refl p w
  unfold updateCertificate Prog.wp Prog.call
  cases ho : o 0 .updateCertificate with
  | none =>
      by_cases hnone : (w.certificates.find? certID).isNone = true
      · simp only [if_pos hnone]
        exact ⟨trivial, hsame, .inl trivial⟩
      · by_cases hrejected : p.rejected = true
        · simp only [if_neg hnone, if_pos hrejected]
          exact ⟨trivial, hsame, .inr (.inr hrejected)⟩
        · simp only [if_neg hnone, if_neg hrejected]
          exact ⟨trivial, hupdate, .inl trivial⟩
  | fails => exact ⟨rfl, hsame, .inr (.inl Fault.noConfusion)⟩
  | lostReply =>
      refine ⟨?_, ?_, .inr (.inl Fault.noConfusion)⟩
      · dsimp only
        split
        · rfl
        · split <;> rfl
      · dsimp only
        split
        · exact hsame
        · split
          · exact hsame
          · exact hupdate

private theorem setCertificateFailed_writes (env : Env) (o : Oracle Call)
    (s : Sys World) (certID : Int) (cause : GoError) :
    (setCertificateFailed env certID cause).wp o s fun _ t =>
      t.state.files = s.state.files ∧ RowsKept s.state t.state := by
  refine (Prog.wp_bind _ _ _).mpr ((Prog.wp_attempt _ _).mpr
    (Prog.wp_call_of ?_ (fun _ => ⟨rfl, rowsKept_refl _⟩) fun _ => ?_))
  all_goals
    refine ⟨rfl, fun c' hc' => ?_⟩
    obtain ⟨c, hc, rfl⟩ := List.mem_map.mp hc'
    refine ⟨c, hc, ?_⟩
    split <;> exact ⟨rfl, rfl⟩

/-- **What a statement of a writer does.** -/
theorem next_writes (env : Env) (o : Oracle Call) (w : World)
    (record : Record) (certID : Int) (res : Resource) (x : Writing) :
    (x.next env record certID res).wp o ⟨w, 0⟩ fun r t => ∀ y, r = .ok y →
      Writes env o record res w t.state x y := by
  cases x with
  | mkdir =>
      refine (Prog.wp_bind _ _ _).mpr ((Prog.wp_attempt _ _).mpr
        ((Prog.wp_mapError _ _ _).mpr (Prog.wp_call_of ?_ ?_ ?_)))
      · intro y hy
        cases hy
        exact .made rfl
      · intro _ y hy
        cases hy
        exact .unmade _ rfl
      · intro _ y hy
        cases hy
        exact .unmade _ rfl
  | files todo =>
      cases todo with
      | cons f todo =>
          refine (Prog.wp_bind _ _ _).mpr ((Prog.wp_attempt _ _).mpr
            (Prog.wp_mono (openFile_writes o w _) ?_))
          rintro (err | ⟨⟩) t ht y hy
          · cases hy
            rcases ht with ⟨ho, hw⟩ | ⟨ho, hw⟩
            · exact .unopened f todo _ ho hw
            · exact .truncated f todo _ ho hw
          · cases hy
            exact .opened f todo ht.1 ht.2
      | nil =>
          rw [Writing.next]
          cases hleaf : parseLeafCertificate env res.certificate with
          | error cause =>
              intro y hy
              cases hy
              exact .unparsed cause hleaf rfl
          | ok leaf =>
              intro y hy
              cases hy
              exact .parsed _ rfl rfl rfl
  | write f todo =>
      refine (Prog.wp_bind _ _ _).mpr ((Prog.wp_attempt _ _).mpr
        (Prog.wp_mono (writeContent_writes o w _ _) ?_))
      rintro (err | ⟨⟩) t ht y hy
      · cases hy
        exact .unwritten f todo _ ht.1 ht.2
      · cases hy
        exact .written f todo ht
  | persist p =>
      refine (Prog.wp_bind _ _ _).mpr ((Prog.wp_attempt _ _).mpr
        ((Prog.wp_mapError _ _ _).mpr
          (Prog.wp_mono (updateCertificate_writes o w certID p) ?_)))
      rintro (err | ⟨⟩) t ⟨hfiles, hrows, hr⟩ y hy
      · cases hy
        exact .unpersisted p _ (hr.resolve_left (by rintro ⟨⟩)) hfiles hrows
      · cases hy
        exact .persisted p hfiles hrows
  | failed cause =>
      refine (Prog.wp_bind _ _ _).mpr (Prog.wp_mono
        (setCertificateFailed_writes env o ⟨w, 0⟩ certID cause) ?_)
      rintro (err | ⟨⟩) t ⟨hfiles, hrows⟩ y hy
      · cases hy
      · cases hy
        exact .closed cause hfiles hrows

/-! ## What a statement of a reader does -/

/-- **What a statement of a reader does**; it leaves the world alone. -/
inductive Reads (w : World) : Loader → Loader → Prop where
  /-- The row was found, with both its paths. -/
  | found (k : Kind) (c : Certificate) (hc : c ∈ w.certificates.rows)
      (hcert : c.certPath ≠ []) (hkey : c.keyPath ≠ []) :
      Reads w (.row k) (.reading k (k.plan c) [])
  | read (k : Kind) (f : GoString × GoString)
      (rest : List (GoString × GoString)) (got : List GoString)
      (content : GoString) (hcontent : w.files f.2 = some content) :
      Reads w (.reading k (f :: rest) got)
        (.reading k rest (got ++ [content]))
  | finished (k : Kind) (got : List GoString) :
      Reads w (.reading k [] got) (.returned k (.ok got))
  | refused (l : Loader) (k : Kind) (err : GoError) :
      Reads w l (.returned k (.error err))
  | stays (l : Loader) (hl : ∀ k rest got, l ≠ .reading k rest got) :
      Reads w l l

/-- A row is only returned with both paths. -/
private theorem checked_reads {o : Oracle Call} {s : Sys World}
    {p : Handler Certificate} (err : GoError)
    (h : p.wp o s fun r t => t.state = s.state ∧
      ∀ c, r = .ok c → c ∈ s.state.certificates.rows) :
    (p >>= fun c =>
      if c.certPath = [] ∨ c.keyPath = [] then Prog.throw err
      else pure c : Handler Certificate).wp o s fun r t =>
        t.state = s.state ∧ ∀ c, r = .ok c →
          c ∈ s.state.certificates.rows ∧ c.certPath ≠ [] ∧
            c.keyPath ≠ [] := by
  refine Prog.wp_bind_of h ?_ ?_
  · intro e t ht
    exact ⟨ht.1, nofun⟩
  · intro c t ht
    by_cases hpaths : c.certPath = [] ∨ c.keyPath = []
    · rw [if_pos hpaths]
      exact ⟨ht.1, nofun⟩
    · rw [if_neg hpaths]
      refine ⟨ht.1, fun c' hc' => ?_⟩
      obtain rfl := Except.ok.inj hc'
      exact ⟨ht.2 c rfl, not_or.mp hpaths⟩

private theorem row_reads (o : Oracle Call) (s : Sys World) (recordID : Int)
    (k : Kind) :
    (k.row recordID).wp o s fun r t => t.state = s.state ∧ ∀ c, r = .ok c →
      c ∈ s.state.certificates.rows ∧ c.certPath ≠ [] ∧ c.keyPath ≠ [] := by
  cases k with
  | task =>
      refine checked_reads _ ((Prog.wp_mapError _ _ _).mpr (Prog.wp_mono
        (getCertificateByRecord_spec o recordID s) ?_))
      exact fun r t ht => ⟨ht.1, fun c hc => ht.2 c (Prog.mapError_eq_ok.mp hc)⟩
  | archive =>
      refine checked_reads _ ((Prog.wp_mapError _ _ _).mpr ?_)
      have hrecord : (getRecord recordID).wp o s fun _ t =>
          t.state = s.state := Prog.wp_query_of rfl rfl
      refine Prog.wp_bind_of hrecord ?_ ?_
      · exact fun err t ht => ⟨ht, nofun⟩
      · intro record t ht
        refine Prog.wp_mono (getCertificateByRecord_spec o recordID t) ?_
        intro r t' ht'
        rw [ht] at ht'
        exact ⟨ht'.1, fun c hc => ht'.2 c (Prog.mapError_eq_ok.mp hc)⟩

/-- **What a statement of a reader does.** -/
theorem next_reads (o : Oracle Call) (s : Sys World) (recordID : Int)
    (l : Loader) :
    (l.next recordID).wp o s fun r t => t.state = s.state ∧
      ∀ l', r = .ok l' → Reads s.state l l' := by
  cases l with
  | idle =>
      refine ⟨rfl, fun l' hl' => ?_⟩
      obtain rfl := Except.ok.inj hl'
      exact .stays _ nofun
  | returned k r =>
      refine ⟨rfl, fun l' hl' => ?_⟩
      obtain rfl := Except.ok.inj hl'
      exact .stays _ nofun
  | row k =>
      refine (Prog.wp_bind _ _ _).mpr ((Prog.wp_attempt _ _).mpr
        (Prog.wp_mono (row_reads o s recordID k) ?_))
      rintro (err | c) t ⟨hstate, hc⟩
      · refine ⟨hstate, fun l' hl' => ?_⟩
        obtain rfl := Except.ok.inj hl'
        exact .refused _ k err
      · refine ⟨hstate, fun l' hl' => ?_⟩
        obtain rfl := Except.ok.inj hl'
        obtain ⟨hmem, hcert, hkey⟩ := hc c rfl
        exact .found k c hmem hcert hkey
  | reading k rest got =>
      cases rest with
      | nil =>
          refine ⟨rfl, fun l' hl' => ?_⟩
          obtain rfl := Except.ok.inj hl'
          exact .finished k got
      | cons f rest =>
          refine (Prog.wp_bind _ _ _).mpr ((Prog.wp_attempt _ _).mpr
            (Prog.wp_query_of ?_ ?_))
          · cases hfile : s.state.files f.2 with
            | none =>
                refine ⟨rfl, fun l' hl' => ?_⟩
                obtain rfl := Except.ok.inj hl'
                exact .refused _ k _
            | some content =>
                refine ⟨rfl, fun l' hl' => ?_⟩
                obtain rfl := Except.ok.inj hl'
                exact .read k f rest got content hfile
          · refine ⟨rfl, fun l' hl' => ?_⟩
            obtain rfl := Except.ok.inj hl'
            exact .refused _ k _

end Hdns.Ports.CertificateFiles

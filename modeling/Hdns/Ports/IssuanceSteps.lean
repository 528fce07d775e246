import Hdns.Ports.Certificates

/-!
# Issuances and saves, statement by statement

`StartIssuance`, `IssueCertificate`, `RenewCertificates` and `UpsertRecord` cut
where other calls can come in between: at every SQL statement, at every access
to the slots, and around the refresh of a record, the ACME flow, the files and
the tasks of an issuance.  A program counter is the statement that comes next,
with what the call has in hand.

Those last four are one step each: none of them touches a slot, a certificate
row, or a record but for its address.

## Main results

* `Stage.runFor_eq_runIssuance`, `runFor_issue`, `runFor_save` — the
  statements of a call, taken one after the other, are the sequential function.
* `Aside` — programs that leave slots, certificate rows and records alone.
* `stage_slots` — no statement of an issuance touches a slot.
-/

namespace Hdns.Ports.IssuanceSteps

open Hdns.Verified
open Hdns.Verified.GoString
open Hdns.Ports.Schema
open Hdns.Ports.UpdateAddress
open Hdns.Ports.Hetzner
open Hdns.Ports.Tasks
open Hdns.Ports.Service
open Hdns.Ports.Names
open Hdns.Ports.Records
open Hdns.Ports.Certificates

/-! ## The statements of an issuance -/

/-- Where `ensureCertificateRow` stands. -/
inductive Ensure where
  /-- Before `GetCertificateByRecord`. -/
  | find
  /-- Before `CreateCertificate`. -/
  | create
  deriving DecidableEq

/-- The error `ensureCertificateRow` returns for one of the database. -/
def notPrepared (err : GoError) : GoError :=
  .because "failed to prepare certificate record" err

/-- One statement of `ensureCertificateRow`: what comes next, or the result. -/
def Ensure.next (record : Record) :
    Ensure → Handler (Ensure ⊕ Except GoError Int)
  | .find => do
      match ← (getCertificateByRecord record.id).attempt with
      | .ok existing => pure (.inr (.ok existing.id))
      | .error .noRows => pure (.inl .create)
      | .error err => pure (.inr (.error (notPrepared err)))
  | .create => do
      let created ← ((createCertificate record.id
        (joinDomains (buildDomains record)) "pending").mapError
        notPrepared).attempt
      pure (.inr created)

/-- Where `runIssuance` stands. -/
inductive Stage where
  | ensure (e : Ensure)
  | createJob (certID : Int)
  | obtain (certID jobID : Int)
  | files (certID jobID : Int) (res : Resource)
  | update (certID jobID : Int) (p : CertificateParams)
  | setFailed (certID jobID : Int) (cause : GoError)
  | finishFailed (jobID : Int) (cause : GoError)
  | finishSucceeded (jobID : Int)
  | fire (jobID : Int)
  /-- `runIssuance` has returned. -/
  | ended (r : Except GoError Unit)

/-- The first statement of `runIssuance`. -/
def Stage.first : Stage := .ensure .find

/-- One statement of `runIssuance`. -/
def Stage.next (env : Env) (record : Record) (source : IssuanceSource) :
    Stage → Handler Stage
  | .ensure e => do
      match ← e.next record with
      | .inl e => pure (.ensure e)
      | .inr (.ok certID) => pure (.createJob certID)
      | .inr (.error err) => pure (.ended (.error err.wrap))
  | .createJob certID => do
      match ← ((createCertificateJob env record.id certID source).mapError
        .wrap).attempt with
      | .ok jobID => pure (.obtain certID jobID)
      | .error err => pure (.ended (.error err))
  | .obtain certID jobID =>
      match obtainCertificate env record (buildDomains record)
        record.domain with
      | .ok res => pure (.files certID jobID res)
      | .error err => pure (.setFailed certID jobID err)
  | .files certID jobID res => do
      match ← (storeFiles env record res).attempt with
      | .ok p => pure (.update certID jobID p)
      | .error err => pure (.setFailed certID jobID err)
  | .update certID jobID p => do
      match ← (persistCertificate certID p).attempt with
      | .ok () => pure (.finishSucceeded jobID)
      | .error err => pure (.setFailed certID jobID err)
  | .setFailed certID jobID cause => do
      setCertificateFailed env certID cause
      pure (.finishFailed jobID cause)
  | .finishFailed jobID cause => do
      finishCertificateJob env jobID "failed" (some cause)
      pure (.ended (.error cause.wrap))
  | .finishSucceeded jobID => do
      finishCertificateJob env jobID "success" none
      pure (.fire jobID)
  | .fire jobID => do
      let r ← (fireTasks env record.id triggerCert (some jobID)).attempt
      pure (.ended r)
  | .ended r => pure (.ended r)

/-- At most `n` statements of an issuance, one after the other. -/
def Stage.runFor (env : Env) (record : Record) (source : IssuanceSource) :
    Nat → Stage → Handler Stage
  | 0, st => pure st
  | n + 1, st => do
      let st ← st.next env record source
      st.runFor env record source n

section Refinement

variable (env : Env) (record : Record) (source : IssuanceSource)

private theorem runFor_succ (n : Nat) (st : Stage) :
    st.runFor env record source (n + 1) =
      st.next env record source >>= fun st => st.runFor env record source n :=
  rfl

private theorem runFor_ended (r : Except GoError Unit) :
    ∀ n, (Stage.ended r).runFor env record source n = pure (.ended r) := by
  intro n
  induction n with
  | zero => rfl
  | succ n ih => simp only [runFor_succ, Stage.next, pure_bind, ih]

/-- The rest of an issuance whose outcome `p` decides. -/
private def closedBy (certID jobID : Int) (p : Handler Unit) :
    Handler Stage := do
  let outcome ← p.attempt
  let r ← (closeIssuance env record certID jobID outcome).attempt
  pure (.ended r)

private theorem closedBy_throw (certID jobID : Int) (cause : GoError) :
    closedBy env record certID jobID (Prog.throw cause) = (do
      let r ← (failIssuance env certID jobID cause).attempt
      pure (.ended r)) := rfl

private theorem runFor_setFailed (certID jobID : Int) (cause : GoError)
    (n : Nat) :
    (Stage.setFailed certID jobID cause).runFor env record source (n + 2) =
      closedBy env record certID jobID (Prog.throw cause) := by
  simp only [runFor_succ, Stage.next, closedBy_throw, failIssuance,
    Prog.attempt_bind, bind_assoc, pure_bind, setCertificateFailed,
    finishCertificateJob, Prog.attempt_attempt, Prog.attempt_throw,
    runFor_ended]

private theorem runFor_finishSucceeded (certID jobID : Int) (n : Nat) :
    (Stage.finishSucceeded jobID).runFor env record source (n + 2) =
      closedBy env record certID jobID (pure ()) := by
  simp only [runFor_succ, Stage.next, closedBy, closeIssuance,
    Prog.attempt_bind, bind_assoc, pure_bind, finishCertificateJob,
    Prog.attempt_attempt, Prog.attempt_pure, runFor_ended]

private theorem runFor_update (certID jobID : Int) (p : CertificateParams)
    (n : Nat) :
    (Stage.update certID jobID p).runFor env record source (n + 3) =
      closedBy env record certID jobID (persistCertificate certID p) := by
  rw [runFor_succ, closedBy, Stage.next, bind_assoc]
  refine bind_congr fun outcome => ?_
  cases outcome with
  | error cause => rw [pure_bind, runFor_setFailed, closedBy_throw]; rfl
  | ok _ => rw [pure_bind, runFor_finishSucceeded]; rfl

private theorem runFor_files (certID jobID : Int) (res : Resource) (n : Nat) :
    (Stage.files certID jobID res).runFor env record source (n + 4) =
      closedBy env record certID jobID
        (storeFiles env record res >>= persistCertificate certID) := by
  rw [runFor_succ, closedBy, Stage.next, Prog.attempt_bind, bind_assoc,
    bind_assoc]
  refine bind_congr fun stored => ?_
  cases stored with
  | error cause => rw [pure_bind, runFor_setFailed, closedBy_throw]; rfl
  | ok p => rw [pure_bind, runFor_update]; rfl

private theorem runFor_obtain (certID jobID : Int) (n : Nat) :
    (Stage.obtain certID jobID).runFor env record source (n + 5) =
      closedBy env record certID jobID (obtainAndStore env record certID) := by
  rw [runFor_succ, Stage.next, obtainAndStore]
  cases obtainCertificate env record (buildDomains record) record.domain with
  | error cause => rw [pure_bind, runFor_setFailed]; rfl
  | ok res => rw [pure_bind, runFor_files]; rfl

private theorem runFor_createJob (certID : Int) (n : Nat) :
    (Stage.createJob certID).runFor env record source (n + 6) = (do
      let r ← (issueForRow env record source certID).attempt
      pure (.ended r)) := by
  rw [runFor_succ, Stage.next, issueForRow, Prog.attempt_bind, bind_assoc,
    bind_assoc]
  refine bind_congr fun created => ?_
  cases created with
  | error err => rw [pure_bind, pure_bind, runFor_ended]
  | ok jobID =>
      rw [pure_bind, runFor_obtain]
      simp only [closedBy, Prog.attempt_bind, Prog.attempt_attempt, bind_assoc,
        pure_bind]

/-- **Refinement.**  An issuance that nothing interrupts is `runIssuance`. -/
theorem Stage.runFor_eq_runIssuance :
    Stage.first.runFor env record source 8 = (do
      let r ← (runIssuance env record source).attempt
      pure (.ended r)) := by
  rw [runFor_succ, Stage.first, Stage.next, Ensure.next, runIssuance,
    ensureCertificateRow]
  simp only [Prog.attempt_bind, Prog.attempt_mapError, Prog.attempt_attempt,
    bind_assoc, pure_bind]
  refine bind_congr fun found => ?_
  cases found with
  | ok existing =>
      change Stage.runFor env record source 7 (.createJob existing.id) = _
      rw [runFor_createJob]
      rfl
  | error err =>
      by_cases hrows : err = .noRows
      · subst hrows
        change Stage.runFor env record source 7 (.ensure .create) = _
        rw [runFor_succ, Stage.next, Ensure.next]
        simp only [Prog.attempt_mapError, bind_assoc, pure_bind]
        refine bind_congr fun created => ?_
        cases created with
        | error err =>
            simp only [Except.mapError, pure_bind, runFor_ended]
            rfl
        | ok certID => exact runFor_createJob env record source certID 0
      · cases err
        all_goals first | exact absurd rfl hrows | rfl

end Refinement

/-! ## The calls -/

/-- What follows an issuance that its caller waits for. -/
inductive Return where
  /-- `IssueCertificate` returns. -/
  | caller
  /-- The rest of the loop of `RenewCertificates`. -/
  | renewal (rest : List Certificate)

/-- What follows `StartIssuance`. -/
inductive After where
  | caller
  /-- The answer of `UpsertRecord` for the saved record. -/
  | save (record : Record)

/-- Where a call stands: the statement that comes next. -/
inductive Pc where
  | idle
  /-- `StartIssuance`, before `GetRecord`. -/
  | start (id : Int) (k : After)
  /-- `StartIssuance`, before its checks and `LoadOrStore`. -/
  | startReserve (record : Record) (k : After)
  /-- `StartIssuance`, making the certificate row visible. -/
  | prepare (record : Record) (e : Ensure) (k : After)
  /-- `StartIssuance`, before the `Delete` after a failed preparation. -/
  | abort (record : Record) (err : GoError) (k : After)
  /-- `IssueCertificate`, before `GetRecord`. -/
  | issue (id : Int)
  /-- `issueForRecord`, before its checks and `LoadOrStore`. -/
  | reserve (record : Record) (source : IssuanceSource) (k : Return)
  /-- `issueForRecord`, inside `runIssuance` or before its deferred
  `Delete`. -/
  | issuing (record : Record) (source : IssuanceSource) (st : Stage)
      (k : Return)
  /-- `RenewCertificates`, before the list of due certificates. -/
  | renew
  /-- `RenewCertificates`, before `GetRecord` for the next one. -/
  | renewNext (rest : List Certificate)
  /-- `UpsertRecord`, before its checks. -/
  | save (input : RecordInput)
  /-- `UpsertRecord`, before the `GetRecord` that keeps the token. -/
  | saveToken (input : RecordInput)
  /-- `UpsertRecord`, before `CreateRecord` or `UpdateRecord`. -/
  | saveRow (input : RecordInput) (token : GoString)
  /-- `UpsertRecord`, before the record is read back. -/
  | saveBack (id : Int)
  /-- `UpsertRecord`, before `RefreshRecord`. -/
  | saveRefresh (record : Record)
  /-- `UpsertRecord`, before it decides about an issuance. -/
  | saveIssue (record : Record)
  /-- `UpsertRecord`, before `GetAddressByID`. -/
  | answer (record : Record)
  | returned (r : Except GoError Unit)

/-- An issuance the caller waited for has ended: an error of one renewal is
only logged. -/
def Return.pc (r : Except GoError Unit) : Return → Pc
  | .caller => .returned r
  | .renewal rest => .renewNext rest

/-- `StartIssuance` has returned: its error is only logged by a save. -/
def After.pc (r : Except GoError Unit) : After → Pc
  | .caller => .returned r
  | .save record => .answer record

/-- The call fails. -/
def failWith (err : GoError) : Handler (Pc × Option Record) :=
  pure (.returned (.error err), none)

/-- One statement of a call: what comes next, and the record whose issuance
it hands to a background goroutine.  A call that has not started or has
returned has no statement. -/
def Pc.next (env : Env) : Pc → Handler (Pc × Option Record)
  | .idle => Prog.throw .noRows
  | .returned _ => Prog.throw .noRows
  | .start id k => do
      match ← (getRecord id).attempt with
      | .ok record => pure (.startReserve record k, none)
      | .error err =>
          pure (k.pc (.error (.because "failed to load record" err)), none)
  | .startReserve record k => do
      match ← (takeSlot env record).attempt with
      | .ok () => pure (.prepare record .find k, none)
      | .error err => pure (k.pc (.error err), none)
  | .prepare record e k => do
      match ← e.next record with
      | .inl e => pure (.prepare record e k, none)
      | .inr (.ok _) => do
          Prog.modify (·.log (.startIssuance record))
          pure (k.pc (.ok ()), some record)
      | .inr (.error err) => pure (.abort record err k, none)
  | .abort record err k => do
      deletePending record.id
      pure (k.pc (.error err.wrap), none)
  | .issue id => do
      match ← (getRecord id).attempt with
      | .ok record =>
          pure (.reserve record issuanceSourceManual .caller, none)
      | .error err => failWith (.because "failed to load record" err)
  | .reserve record source k => do
      match ← (takeSlot env record).attempt with
      | .ok () => pure (.issuing record source .first k, none)
      | .error err => pure (k.pc (.error err), none)
  | .issuing record _ (.ended r) k => do
      deletePending record.id
      pure (k.pc r, none)
  | .issuing record source st k => do
      let st ← st.next env record source
      pure (.issuing record source st k, none)
  | .renew => do
      if ¬env.acmeEnabled then pure (.returned (.ok ()), none)
      else
        match ← (listCertificatesForRenewal
          (env.now + renewBefore env.renewBeforeDays / 1000000000)).attempt with
        | .ok certs => pure (.renewNext certs, none)
        | .error err =>
            failWith (.because "failed to list certificates for renewal" err)
  | .renewNext [] => pure (.returned (.ok ()), none)
  | .renewNext (cert :: rest) => do
      match ← (getRecord cert.recordID).attempt with
      | .ok record =>
          if recordDoesCert record.purpose then
            pure (.reserve record issuanceSourceScheduled (.renewal rest),
              none)
          else pure (.renewNext rest, none)
      | .error _ => pure (.renewNext rest, none)
  | .save input =>
      match checkInput env input with
      | .ok encrypted =>
          if input.id ≠ 0 ∧ input.token = [] then
            pure (.saveToken input, none)
          else pure (.saveRow input encrypted, none)
      | .error err => failWith err
  | .saveToken input => do
      match ← (getRecord input.id).attempt with
      | .ok existing => pure (.saveRow input existing.token, none)
      | .error err =>
          failWith (.wrap (.because
            "failed to fetch existing record from database" err))
  | .saveRow input token => do
      match ← (storeRow env input token).attempt with
      | .ok id => pure (.saveBack id, none)
      | .error err => failWith err.wrap
  | .saveBack id => do
      match ← (getRecord id).attempt with
      | .ok record => pure (.saveRefresh record, none)
      | .error err =>
          failWith (.wrap (.because
            "failed to fetch record from database" err))
  | .saveRefresh record => do
      match ← (refreshRecord env record).attempt with
      | .ok record => pure (.saveIssue record, none)
      | .error err => failWith (.because "failed to refresh record" err)
  | .saveIssue record =>
      if recordDoesCert record.purpose ∧ env.acmeEnabled then
        pure (.start record.id (.save record), none)
      else pure (.answer record, none)
  | .answer record => do
      let r ← (Records.answer record).attempt
      pure (.returned (r.map fun _ => ()), none)

/-- A foreground issuance goes on until it has ended. -/
theorem next_issuing (env : Env) (record : Record) (source : IssuanceSource)
    {st : Stage} (k : Return) (h : ∀ r, st ≠ .ended r) :
    (Pc.issuing record source st k).next env = (do
      let st ← st.next env record source
      pure (.issuing record source st k, none)) := by
  cases st with
  | ended r => exact absurd rfl (h r)
  | _ => rfl

/-- At most `n` statements of a call, one after the other; its background
goroutine does not run meanwhile. -/
def Pc.runFor (env : Env) : Nat → Pc → Handler Pc
  | _, .returned r => pure (.returned r)
  | 0, pc => pure pc
  | n + 1, pc => do
      let (pc, _) ← pc.next env
      pc.runFor env n

section CallRefinement

variable (env : Env)

private theorem runFor_returned (r : Except GoError Unit) (n : Nat) :
    (Pc.returned r).runFor env n = pure (.returned r) := by
  cases n <;> rfl

/-- A function whose call is over: only whether it failed counts. -/
def returnedBy {α : Type} (p : Handler α) : Handler Pc := do
  let r ← p.attempt
  pure (.returned (r.map fun _ => ()))

/-- What a caller of `StartIssuance` makes of it. -/
private def thenAfter (k : After) (p : Handler Unit) : Handler Pc := do
  let r ← p.attempt
  (k.pc r).runFor env 1

private theorem runFor_next (pc : Pc) (h : ∀ r, pc ≠ .returned r) (n : Nat) :
    pc.runFor env (n + 1) = pc.next env >>= fun x => x.1.runFor env n := by
  cases pc with
  | returned r => exact absurd rfl (h r)
  | _ => rfl

private theorem runFor_answer (record : Record) (n : Nat) :
    (Pc.answer record).runFor env (n + 1) =
      returnedBy (Records.answer record) := by
  rw [runFor_next env (.answer record) nofun, Pc.next, returnedBy, bind_assoc]
  refine bind_congr fun r => ?_
  rw [pure_bind, runFor_returned]

private theorem runFor_after (k : After) (r : Except GoError Unit) (n : Nat) :
    (k.pc r).runFor env (n + 1) = (k.pc r).runFor env 1 := by
  cases k with
  | caller => rfl
  | save record =>
      exact (runFor_answer env record n).trans (runFor_answer env record 0).symm

private theorem runFor_abort (record : Record) (err : GoError) (k : After)
    (n : Nat) :
    (Pc.abort record err k).runFor env (n + 2) =
      thenAfter env k (do
        deletePending record.id
        Prog.throw err.wrap) := by
  rw [runFor_next env (.abort record err k) nofun, Pc.next, thenAfter,
    Prog.attempt_bind]
  simp only [bind_assoc, pure_bind, runFor_after env k _ n]
  rfl

/-- Once the row is there or cannot be: the end of `prepareIssuance`. -/
private def handOver (record : Record) (r : Except GoError Int) :
    Handler Unit :=
  match r with
  | .error err => do
      deletePending record.id
      Prog.throw err.wrap
  | .ok _ => Prog.modify (·.log (.startIssuance record))

private theorem runFor_prepare (record : Record) (k : After) (n : Nat) :
    (Pc.prepare record .find k).runFor env (n + 4) =
      thenAfter env k (prepareIssuance record) := by
  have hcreate : (Pc.prepare record .create k).runFor env (n + 3) =
      thenAfter env k (do
        let r ← ((createCertificate record.id
          (joinDomains (buildDomains record)) "pending").mapError
          notPrepared).attempt
        handOver record r) := by
    rw [runFor_next env (.prepare record .create k) nofun, Pc.next, thenAfter,
      Prog.attempt_bind, Ensure.next]
    simp only [Prog.attempt_attempt, bind_assoc, pure_bind]
    refine bind_congr fun r => ?_
    cases r with
    | error err => exact runFor_abort env record err k n
    | ok id =>
        simp only [bind_assoc, pure_bind, runFor_after env k _ (n + 1)]
        rfl
  rw [runFor_next env (.prepare record .find k) nofun, Pc.next, thenAfter,
    Ensure.next, prepareIssuance, ensureCertificateRow]
  simp only [Prog.attempt_bind, Prog.attempt_mapError, Prog.attempt_attempt,
    bind_assoc, pure_bind]
  refine bind_congr fun found => ?_
  cases found with
  | ok existing =>
      simp only [bind_assoc, pure_bind, runFor_after env k _ (n + 2)]
      rfl
  | error err =>
      by_cases hrows : err = .noRows
      · subst hrows
        rw [pure_bind, pure_bind]
        exact hcreate
      · cases err
        all_goals first
          | exact absurd rfl hrows
          | exact runFor_abort env record _ k (n + 1)

private theorem runFor_start (id : Int) (k : After) (n : Nat) :
    (Pc.start id k).runFor env (n + 6) =
      thenAfter env k (startIssuance env id) := by
  have hreserve : ∀ record, (Pc.startReserve record k).runFor env (n + 5) =
      thenAfter env k (do
        takeSlot env record
        prepareIssuance record) := by
    intro record
    rw [runFor_next env (.startReserve record k) nofun, Pc.next, thenAfter,
      Prog.attempt_bind, bind_assoc, bind_assoc]
    refine bind_congr fun r => ?_
    cases r with
    | error err => exact runFor_after env k _ (n + 3)
    | ok _ => exact runFor_prepare env record k n
  rw [runFor_next env (.start id k) nofun, Pc.next, thenAfter, startIssuance,
    Prog.attempt_bind, Prog.attempt_mapError]
  simp only [bind_assoc, pure_bind]
  refine bind_congr fun found => ?_
  cases found with
  | error err => exact runFor_after env k _ (n + 4)
  | ok record => exact hreserve record

private theorem runFor_saveIssue (record : Record) (n : Nat) :
    (Pc.saveIssue record).runFor env (n + 7) =
      returnedBy (do
        issueAfterSave env record
        Records.answer record) := by
  rw [runFor_next env (.saveIssue record) nofun, Pc.next, issueAfterSave]
  split
  · rw [pure_bind]
    refine (runFor_start env record.id (.save record) n).trans ?_
    simp only [thenAfter, returnedBy, Prog.attempt_bind, Prog.attempt_attempt,
      bind_assoc, pure_bind]
    exact bind_congr fun _ => runFor_answer env record 0
  · rw [pure_bind]
    exact runFor_answer env record (n + 5)

private theorem runFor_saveBack (id : Int) (n : Nat) :
    (Pc.saveBack id).runFor env (n + 9) =
      returnedBy (do
        let record ← (getRecord id).mapError fun err =>
          .wrap (.because "failed to fetch record from database" err)
        afterSave env record) := by
  have hrefresh : ∀ record, (Pc.saveRefresh record).runFor env (n + 8) =
      returnedBy (afterSave env record) := by
    intro record
    rw [runFor_next env (.saveRefresh record) nofun, Pc.next, returnedBy,
      afterSave, Prog.attempt_bind, Prog.attempt_mapError]
    simp only [bind_assoc, pure_bind]
    refine bind_congr fun r => ?_
    cases r with
    | error err => rfl
    | ok record' => exact runFor_saveIssue env record' n
  rw [runFor_next env (.saveBack id) nofun, Pc.next, returnedBy,
    Prog.attempt_bind, Prog.attempt_mapError]
  simp only [bind_assoc, pure_bind]
  refine bind_congr fun found => ?_
  cases found with
  | error err => rfl
  | ok record => exact hrefresh record

/-- **Refinement.**  A save that nothing interrupts is `UpsertRecord`, with
its issuance handed to a background goroutine. -/
theorem runFor_save (input : RecordInput) :
    (Pc.save input).runFor env 12 = returnedBy (upsertRecord env input) := by
  have hrow : ∀ token n, (Pc.saveRow input token).runFor env (n + 10) =
      returnedBy (do
        let record ← (do
          let id ← storeRow env input token
          (getRecord id).mapError
            (.because "failed to fetch record from database") :
          Handler Record).mapError .wrap
        afterSave env record) := by
    intro token n
    rw [runFor_next env (.saveRow input token) nofun, Pc.next, returnedBy]
    simp only [Prog.attempt_bind, Prog.attempt_mapError, bind_assoc, pure_bind]
    refine bind_congr fun stored => ?_
    cases stored with
    | error err => rfl
    | ok id =>
        refine (runFor_saveBack env id n).trans ?_
        simp only [returnedBy, Prog.attempt_bind, Prog.attempt_mapError,
          bind_assoc, pure_bind]
        exact bind_congr fun found => by cases found <;> rfl
  rw [runFor_next env (.save input) nofun, Pc.next, upsertRecord]
  cases checkInput env input with
  | error err => rfl
  | ok encrypted =>
      dsimp only
      change _ = returnedBy ((saveRecord env input encrypted).mapError .wrap
        >>= afterSave env)
      rw [saveRecord, storeRecord, storedToken]
      by_cases hkeep : input.id ≠ 0 ∧ input.token = []
      · rw [if_pos hkeep, if_pos hkeep, pure_bind]
        change (Pc.saveToken input).runFor env 11 = _
        rw [runFor_next env (.saveToken input) nofun, Pc.next, returnedBy]
        simp only [Prog.attempt_bind, Prog.attempt_mapError, bind_assoc,
          pure_bind]
        refine bind_congr fun found => ?_
        cases found with
        | error err => rfl
        | ok existing =>
            refine (hrow existing.token 0).trans ?_
            simp only [returnedBy, Prog.attempt_bind, Prog.attempt_mapError,
              bind_assoc, pure_bind]
            rfl
      · rw [if_neg hkeep, if_neg hkeep, pure_bind, pure_bind]
        exact hrow encrypted 1

private theorem runFor_issuing_ended (record : Record)
    (source : IssuanceSource) (r : Except GoError Unit) (n : Nat) :
    (Pc.issuing record source (.ended r) .caller).runFor env (n + 1) = (do
      deletePending record.id
      pure (.returned r)) := by
  rw [runFor_next env (.issuing record source (.ended r) .caller) nofun,
    Pc.next, bind_assoc]
  refine bind_congr fun _ => ?_
  rw [pure_bind]
  exact runFor_returned env r n

/-- An issuance in the foreground is its stages, and the rest of the call. -/
private theorem runFor_issuing (record : Record) (source : IssuanceSource) :
    ∀ n st, (Pc.issuing record source st .caller).runFor env (n + 1) = (do
      let st ← st.runFor env record source n
      (Pc.issuing record source st .caller).runFor env 1) := by
  intro n
  induction n with
  | zero => exact fun st => rfl
  | succ n ih =>
      intro st
      by_cases hended : ∃ r, st = .ended r
      · obtain ⟨r, rfl⟩ := hended
        rw [runFor_ended, pure_bind, runFor_issuing_ended,
          runFor_issuing_ended env record source r 0]
      · have hnext := next_issuing env record source .caller fun r hr =>
          hended ⟨r, hr⟩
        rw [runFor_next env (.issuing record source st .caller) nofun, hnext,
          runFor_succ, bind_assoc, bind_assoc]
        refine bind_congr fun st' => ?_
        rw [pure_bind]
        exact ih st'

/-- **Refinement.**  A call that nothing interrupts is `IssueCertificate`. -/
theorem runFor_issue (id : Int) :
    (Pc.issue id).runFor env 11 = returnedBy (issueCertificate env id) := by
  have hreserve : ∀ record source,
      (Pc.reserve record source .caller).runFor env 10 =
        returnedBy (issueForRecord env record source) := by
    intro record source
    rw [runFor_next env (.reserve record source .caller) nofun, Pc.next,
      returnedBy, issueForRecord, Prog.attempt_bind]
    simp only [bind_assoc]
    refine bind_congr fun taken => ?_
    cases taken with
    | error err => rfl
    | ok _ =>
        refine (runFor_issuing env record source 8 .first).trans ?_
        rw [Stage.runFor_eq_runIssuance]
        simp only [Prog.attempt_bind, Prog.attempt_attempt, bind_assoc,
          pure_bind]
        refine bind_congr fun r => ?_
        rw [runFor_issuing_ended env record source r 0]
        cases r <;> rfl
  rw [runFor_next env (.issue id) nofun, Pc.next, returnedBy,
    issueCertificate, Prog.attempt_bind, Prog.attempt_mapError]
  simp only [bind_assoc, pure_bind]
  refine bind_congr fun found => ?_
  cases found with
  | error err => rfl
  | ok record => exact hreserve record issuanceSourceManual

end CallRefinement

/-! ## Slots and program counters -/

/-- The slot the main flow of a thread holds. -/
def Pc.slot : Pc → Option Int
  | .prepare record _ _ => some record.id
  | .abort record _ _ => some record.id
  | .issuing record _ _ _ => some record.id
  | _ => none

/-- The function that took the slot has ended: its `Delete` comes next. -/
def Pc.ended : Pc → Bool
  | .abort _ _ _ => true
  | .issuing _ _ (.ended _) _ => true
  | _ => false

/-- A call that has nothing left to do with slots. -/
def Pc.winding : Pc → Bool
  | .answer _ => true
  | .returned _ => true
  | _ => false

/-- The record whose `runIssuance` the main flow is in. -/
def Pc.running : Pc → Option Int
  | .issuing _ _ (.ended _) _ => none
  | .issuing record _ _ _ => some record.id
  | _ => none

@[simp] theorem slot_returnPc (r : Except GoError Unit) (k : Return) :
    (k.pc r).slot = none := by
  cases k <;> rfl

@[simp] theorem slot_afterPc (r : Except GoError Unit) (k : After) :
    (k.pc r).slot = none := by
  cases k <;> rfl

@[simp] theorem winding_afterPc (r : Except GoError Unit) (k : After) :
    (k.pc r).winding = true := by
  cases k <;> rfl

theorem slot_of_winding {pc : Pc} (h : pc.winding = true) : pc.slot = none := by
  cases pc <;> first | rfl | cases h

/-! ## Programs beside the issuances -/

/-- A record without the one column that a refresh sets. -/
def savedColumns (r : Record) : Record := { r with addressID := none }

/-- Slots and certificate rows stay, and records but for their address. -/
structure Aside (w w' : World) : Prop where
  pending : w'.pending = w.pending
  certificates : w'.certificates = w.certificates
  records : ∀ id, (w'.records.find? id).map savedColumns =
    (w.records.find? id).map savedColumns

theorem Aside.refl (w : World) : Aside w w := ⟨rfl, rfl, fun _ => rfl⟩

theorem Aside.trans (w₁ w₂ w₃ : World) (h : Aside w₁ w₂) (h' : Aside w₂ w₃) :
    Aside w₁ w₃ :=
  ⟨h'.pending.trans h.pending, h'.certificates.trans h.certificates,
    fun id => (h'.records id).trans (h.records id)⟩

section AsidePrograms

variable {o : Oracle Call}

private theorem call_aside {α : Type} {c : Call} {err : GoError}
    {act : World → Except GoError α × World}
    (hpending : ∀ w, (act w).2.pending = w.pending)
    (hcerts : ∀ w, (act w).2.certificates = w.certificates)
    (hrecords : ∀ w, (act w).2.records = w.records) :
    Prog.Keeps o Aside (Prog.call c err act) :=
  .call Aside.refl fun w =>
    ⟨hpending w, hcerts w, fun id => by rw [hrecords w]⟩

theorem updateRecordAddress_aside (addressID id : Int) :
    Prog.Keeps o Aside (updateRecordAddress addressID id) := by
  refine .call Aside.refl fun w => ?_
  split
  · exact Aside.refl w
  · refine ⟨rfl, rfl, fun i => ?_⟩
    rw [Table.find?_updateWhere]
    cases w.records.find? i with
    | none => rfl
    | some r =>
        simp only [Option.map_some, savedColumns]
        split <;> rfl

theorem updateRecord_aside (env : Env) (r : Record) (addr : Address) :
    Prog.Keeps o Aside (updateRecord env r addr) :=
  updateRecord_keeps Aside.refl Aside.trans env
    (fun _ _ _ => ⟨rfl, rfl, fun _ => rfl⟩) (updateRecordAddress_aside _ _)

theorem fireTasks_aside (env : Env) (recordID : Int) (event : Trigger)
    (job : Option Int) :
    Prog.Keeps o Aside (fireTasks env recordID event job) := by
  refine fireTasks_keeps ⟨Aside.refl, fun _ _ => Aside.trans, ?_, ?_, ?_⟩ env
    recordID event job
  · exact fun _ _ => ⟨rfl, rfl, fun _ => rfl⟩
  · exact fun _ _ _ => ⟨rfl, rfl, fun _ => rfl⟩
  · exact fun _ _ _ _ _ => ⟨rfl, rfl, fun _ => rfl⟩

theorem applyCurrent_aside (env : Env) (r : Record) (addr : Address)
    (ip : GoString) : Prog.Keeps o Aside (applyCurrent env r addr ip) := by
  exact applyCurrent_keeps Aside.refl Aside.trans env
    (updateRecord_aside env r addr) (fun _ => fireTasks_aside env _ _ _) ip

theorem refreshRecord_aside (env : Env) (r : Record) :
    Prog.Keeps o Aside (refreshRecord env r) := by
  refine .ite (fun _ => ?_) fun _ => .pure Aside.refl _
  refine .bind Aside.trans (.mapError (.query Aside.refl) _) fun current => ?_
  split
  · exact .throw Aside.refl _
  · exact applyCurrent_aside env r current _

theorem createCertificateJobRow_aside (recordID : Int)
    (certificateID : Option Int) (source status : GoString)
    (startedAt : Int) :
    Prog.Keeps o Aside (createCertificateJobRow recordID certificateID source
      status startedAt) := by
  refine .call Aside.refl fun w => ?_
  split
  · exact Aside.refl w
  · exact ⟨rfl, rfl, fun _ => rfl⟩

theorem createCertificateJob_aside (env : Env) (recordID certID : Int)
    (source : IssuanceSource) :
    Prog.Keeps o Aside (createCertificateJob env recordID certID source) :=
  .mapError (createCertificateJobRow_aside _ _ _ _ _) _

theorem finishCertificateJob_aside (env : Env) (jobID : Int)
    (status : GoString) (runErr : Option GoError) :
    Prog.Keeps o Aside (finishCertificateJob env jobID status runErr) :=
  .bind Aside.trans
    (.attempt (call_aside (fun _ => rfl) (fun _ => rfl) fun _ => rfl))
    fun _ => .pure Aside.refl _

theorem writeFile_aside (path content : GoString) :
    Prog.Keeps o Aside (writeFile path content) :=
  .bind Aside.trans (call_aside (fun _ => rfl) (fun _ => rfl) fun _ => rfl)
    fun _ => call_aside (fun _ => rfl) (fun _ => rfl) fun _ => rfl

theorem storeFiles_aside (env : Env) (record : Record) (res : Resource) :
    Prog.Keeps o Aside (storeFiles env record res) := by
  refine .bind Aside.trans ?_ fun paths =>
    .bind Aside.trans (.ofExcept Aside.refl _) fun _ => .pure Aside.refl _
  refine .bind Aside.trans (.mapError
    (call_aside (fun _ => rfl) (fun _ => rfl) fun _ => rfl) _) fun _ => ?_
  exact .bind Aside.trans (.forM Aside.refl Aside.trans (fun file =>
    .mapError (writeFile_aside _ _) _) _) fun _ => .pure Aside.refl _

theorem answer_aside (record : Record) :
    Prog.Keeps o Aside (Records.answer record) := by
  unfold Records.answer
  split
  · exact .pure Aside.refl _
  · exact .bind Aside.trans (.mapError (.query Aside.refl) _) fun _ =>
      .pure Aside.refl _

end AsidePrograms

/-! ## Programs that leave the slots alone -/

/-- The slots stay as they are. -/
def SlotsKept (w w' : World) : Prop := w'.pending = w.pending

theorem SlotsKept.refl (w : World) : SlotsKept w w := rfl

theorem SlotsKept.trans (w₁ w₂ w₃ : World) (h : SlotsKept w₁ w₂)
    (h' : SlotsKept w₂ w₃) : SlotsKept w₁ w₃ := Eq.trans h' h

section SlotsKept

variable {o : Oracle Call}

theorem slots_of_aside {α : Type} {p : Handler α}
    (h : Prog.Keeps o Aside p) : Prog.Keeps o SlotsKept p :=
  h.mono fun _ _ => Aside.pending

theorem storeRow_slots (env : Env) (input : RecordInput) (token : GoString) :
    Prog.Keeps o SlotsKept (storeRow env input token) :=
  storeRow_keeps SlotsKept.refl SlotsKept.trans (fun _ _ => rfl) env input token

theorem ensure_slots (record : Record) (e : Ensure) :
    Prog.Keeps o SlotsKept (e.next record) := by
  cases e with
  | find =>
      refine .bind SlotsKept.trans (.attempt (.query SlotsKept.refl))
        fun found => ?_
      split <;> exact .pure SlotsKept.refl _
  | create =>
      exact .bind SlotsKept.trans
        (.attempt (.mapError (createCertificate_keeps SlotsKept.refl
          (fun _ _ => rfl) _ _ _) _)) fun _ => .pure SlotsKept.refl _

theorem updateCertificate_slots (id : Int) (p : CertificateParams) :
    Prog.Keeps o SlotsKept (updateCertificate id p) := by
  refine .call SlotsKept.refl fun w => ?_
  split
  · rfl
  · split <;> rfl

theorem stage_slots (env : Env) (record : Record) (source : IssuanceSource)
    (st : Stage) :
    Prog.Keeps o SlotsKept (st.next env record source) := by
  cases st with
  | ensure e =>
      refine .bind SlotsKept.trans (ensure_slots record e) fun r => ?_
      split <;> exact .pure SlotsKept.refl _
  | createJob certID =>
      refine .bind SlotsKept.trans (.attempt (.mapError
        (slots_of_aside (createCertificateJob_aside env _ _ _)) _))
        fun r => ?_
      split <;> exact .pure SlotsKept.refl _
  | obtain certID jobID =>
      rw [Stage.next]
      split <;> exact .pure SlotsKept.refl _
  | files certID jobID res =>
      refine .bind SlotsKept.trans (.attempt
        (slots_of_aside (storeFiles_aside env record res))) fun r => ?_
      split <;> exact .pure SlotsKept.refl _
  | update certID jobID p =>
      refine .bind SlotsKept.trans (.attempt (.mapError
        (updateCertificate_slots certID p) _)) fun r => ?_
      split <;> exact .pure SlotsKept.refl _
  | setFailed certID jobID cause =>
      refine .bind SlotsKept.trans ?_ fun _ => .pure SlotsKept.refl _
      exact .bind SlotsKept.trans (.attempt (.call SlotsKept.refl
        fun _ => rfl)) fun _ => .pure SlotsKept.refl _
  | finishFailed jobID cause =>
      exact .bind SlotsKept.trans
        (slots_of_aside (finishCertificateJob_aside env jobID _ _)) fun _ =>
          .pure SlotsKept.refl _
  | finishSucceeded jobID =>
      exact .bind SlotsKept.trans
        (slots_of_aside (finishCertificateJob_aside env jobID _ _)) fun _ =>
          .pure SlotsKept.refl _
  | fire jobID =>
      exact .bind SlotsKept.trans (.attempt
        (slots_of_aside (fireTasks_aside env _ _ _))) fun _ =>
          .pure SlotsKept.refl _
  | ended r => exact .pure SlotsKept.refl _

end SlotsKept

end Hdns.Ports.IssuanceSteps

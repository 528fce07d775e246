import Hdns.Ports.Records

/-!
# Refreshes, statement by statement

`Refresh`, `UpsertRecord` and the API's `RefreshRecord` and `RefreshAddress`
cut where other calls can come in between: at every statement on the addresses,
at the list of the records, and before each read and each write of a record
set.  A program counter is what comes next, with the address in hand.

What touches neither the addresses nor a record set is taken together with the
statement before it: saving a record, firing tasks, collecting the certificate
status, starting an issuance and the answer.

## Main results

* `leads_refresh`, `leads_save`, `leads_server`, `leads_address` — the
  statements of a call, taken one after the other, are the sequential function.
-/

namespace Hdns.Ports.RefreshSteps

open Hdns.Verified
open Hdns.Ports.Schema
open Hdns.Ports.UpdateAddress
open Hdns.Ports.Hetzner
open Hdns.Ports.Tasks
open Hdns.Ports.Service
open Hdns.Ports.Records

/-! ## Program counters -/

/-- What a call of `UpdateAddress` is made for. -/
inductive Job where
  /-- `Refresh`. -/
  | pass
  /-- `Server.RefreshRecord`, which has loaded this record. -/
  | server (record : Record)
  /-- `Server.RefreshAddress`. -/
  | address

/-- What follows a call of `UpdateRecord`. -/
inductive After where
  /-- The rest of the first loop of `Refresh`, over `all` records. -/
  | pass (report : Report) (status : RecordStatus) (rest all : List Record)
  /-- The answer of `Server.RefreshRecord`. -/
  | server
  /-- The tasks of `dns.RefreshRecord`, and the answer of `UpsertRecord`. -/
  | save

/-- Where a call stands. -/
inductive Pc where
  | idle
  /-- `Server.RefreshRecord`, before `GetRecord`. -/
  | load (id : Int)
  /-- `UpdateAddress`, before the resolvers are asked. -/
  | resolve (job : Job)
  /-- Before the first `GetCurrentAddress`. -/
  | scan (job : Job) (p : Pair)
  /-- Before `ResetCurrentAddresses`. -/
  | reset (job : Job) (p : Pair)
  /-- Before `CreateAddress`. -/
  | create (job : Job) (p : Pair)
  /-- Before the second `GetCurrentAddress`. -/
  | reread (job : Job)
  /-- `Refresh`, before `ListRecords`. -/
  | list (addr : Address)
  /-- `Refresh`, before the next record of its first loop. -/
  | visit (addr : Address) (report : Report) (rest all : List Record)
  /-- `UpsertRecord`, before its checks. -/
  | save (input : RecordInput)
  /-- `dns.RefreshRecord`, before `GetCurrentAddress`. -/
  | current (record : Record)
  /-- `dns.RefreshRecord`, before the record set is compared. -/
  | compare (addr : Address) (ipv4 : GoString) (record : Record)
  /-- `UpdateRecord`, before the record set is looked up. -/
  | read (addr : Address) (record : Record) (k : After)
  /-- `UpdateRecord`, before the record set is created or overwritten. -/
  | write (addr : Address) (record : Record) (found : Option RRSet) (k : After)
  /-- `UpdateRecord`, before `UpdateRecordAddress`. -/
  | place (addr : Address) (record : Record) (k : After)
  /-- `UpsertRecord`, once the record is refreshed. -/
  | finish (record : Record)
  | returned (r : Except GoError Unit)

/-! ## The statements -/

/-- `UpdateAddress` up to its callback: the pair that was resolved. -/
def resolvedPair (env : Env) : Except GoError Pair :=
  match h : UpdateAddress.resolve env.consensus4 env.consensus6 with
  | .error err => .error err.wrap
  | .ok p => .ok ⟨p.1, p.2, (resolve_ok h).2⟩

/-- The error `UpdateAddress` returns for one of its callback. -/
def notSaved (err : GoError) : GoError :=
  .because "failed to save public IP address to database" err

/-- `UpdateRecord` up to its lookup. -/
def readRRSet (env : Env) (record : Record) : Handler (Option RRSet) := do
  let _ ← Prog.ofExcept ((clientForRecord env record).mapError .wrap)
  ((findResourceRecordSet record).mapError .wrap).mapError .wrap

/-- The request of `UpdateRecord` that creates or overwrites the record set. -/
def writeRRSet (addr : Address) (record : Record) (found : Option RRSet) :
    Handler Unit :=
  Prog.mapError .wrap <|
    match found with
    | none =>
        (Prog.call .createRRSet .api (createRRSet record addr
          ⟨record.ttl.toInt, [addr.ipv4.string]⟩)).mapError
          (.because "failed to create RRSet")
    | some _ =>
        (Prog.call .setRRSetRecords .api (setRRSetRecords record addr
          [addr.ipv4.string])).mapError
          (.because "failed to set RRSet records")

/-- The end of `UpdateRecord`. -/
def placeRecord (addr : Address) (record : Record) : Handler Record := do
  let r := { record with addressID := some addr.id }
  (updateRecordAddress addr.id r.id).mapError fun err =>
    .because (GoString.lit "failed to update DNS record " ++ r.name ++
      GoString.lit "." ++ r.domain ++ GoString.lit " in database") err.wrap
  pure r

/-- A call is over: only whether it failed counts. -/
def ended {α : Type} (p : Handler α) : Handler Pc := do
  let r ← p.attempt
  pure (.returned (r.map fun _ => ()))

/-- The call fails. -/
def failWith (err : GoError) : Handler Pc := pure (.returned (.error err))

/-- What a call makes of a failed `UpdateAddress`. -/
def Job.failed (env : Env) (err : GoError) : Job → Handler Pc
  | .pass => ended (giveUp env Report.zero err
      "failed to update public IP address")
  | .server _ =>
      failWith (.wrap (.because "failed to update public IP address" err))
  | .address => failWith (.because "failed to refresh address" err)

/-- What follows a successful one. -/
def Job.stored (addr : Address) : Job → Pc
  | .pass => .list addr
  | .server record => .read addr record .server
  | .address => .returned (.ok ())

/-- The end of the body of the first loop of `Refresh`. -/
def settle (env : Env) (addr : Address) (report : Report) (record : Record)
    (status : RecordStatus) (rest all : List Record) : Handler Pc := do
  match ← (countResult env record status.result report).attempt with
  | .ok report => pure (.visit addr { report with
      records := report.records ++ [status] } rest all)
  | .error err => failWith err

/-- What a call makes of the outcome of `UpdateRecord`. -/
def After.resume (env : Env) (addr : Address) (record : Record)
    (u : Except GoError Record) : After → Handler Pc
  | .pass report status rest all =>
      match u with
      | .error err => settle env addr report record { status with
          result := resultFailed, error := env.errorText err } rest all
      | .ok _ => settle env addr report record { status with
          result := resultUpdated } rest all
  | .server =>
      match u with
      | .error err =>
          failWith (.wrap (.because "failed to update DNS record" err))
      | .ok _ => pure (.returned (.ok ()))
  | .save =>
      match u with
      | .error err => failWith (.because "failed to refresh record" err)
      | .ok record => do
          match ← (fireTasks env record.id triggerIP none).attempt with
          | .ok _ => pure (.finish record)
          | .error err => failWith (.because "failed to refresh record" err)

/-- The next record of the first loop of `Refresh`. -/
def visitRecord (env : Env) (addr : Address) (report : Report)
    (record : Record) (rest all : List Record) : Handler Pc :=
  if recordDoesDDNS record.purpose then
    let status : RecordStatus := ⟨record.domain, record.name, "A", [], [], []⟩
    match addr.ipv4 with
    | none => settle env addr report record { status with
        result := resultFailed, error := noIPv4 } rest all
    | some ipv4 => do
        match ← (fetchRecord env record).attempt with
        | .error err => settle env addr report record { status with
            result := resultFailed, error := env.errorText err } rest all
        | .ok found =>
            let first := found.bind fun rrset => rrset.values.head?
            let status := { status with value := first.getD [] }
            if first = some ipv4 then
              settle env addr report record { status with
                result := resultUnchanged } rest all
            else pure (.read addr record (.pass report status rest all))
  else pure (.visit addr report rest all)

/-- One statement of a call.  A call that has not started or has returned has
none. -/
def Pc.next (env : Env) : Pc → Handler Pc
  | .idle => Prog.throw .noRows
  | .returned _ => Prog.throw .noRows
  | .load id => do
      match ← (getRecord id).attempt with
      | .ok record => pure (.resolve (.server record))
      | .error err => failWith (.wrap (.because
          "failed to fetch record from database" err))
  | .resolve job =>
      match resolvedPair env with
      | .ok p => pure (.scan job p)
      | .error err => job.failed env err
  | .scan job p => do
      match ← scanCurrent.attempt with
      | .ok addr =>
          if addr.ipv4.string = p.ipv4 ∧ addr.ipv6.string = p.ipv6 then
            pure (job.stored addr)
          else pure (.reset job p)
      | .error err => job.failed env (notSaved err)
  | .reset job p => do
      match ← (resetCurrentAddresses.mapError .wrap).attempt with
      | .ok _ => pure (.create job p)
      | .error err => job.failed env (notSaved err)
  | .create job p => do
      match ← ((createAddress env (nullString p.ipv4) (nullString p.ipv6)
        true).mapError .wrap).attempt with
      | .ok _ => pure (.reread job)
      | .error err => job.failed env (notSaved err)
  | .reread job => do
      match ← (getCurrentAddress.mapError .wrap).attempt with
      | .ok addr => pure (job.stored addr)
      | .error err => job.failed env (notSaved err)
  | .list addr => do
      let report := { Report.zero with
        currentIPv4 := addr.ipv4.string, currentIPv6 := addr.ipv6.string }
      match ← ((listRecords env).mapError .wrap).attempt with
      | .ok records => pure (.visit addr report records records)
      | .error err =>
          ended (giveUp env report err "failed to fetch DNS records")
  | .visit _ report [] all => ended (do
      let report ← all.foldlM (certificateOne env) report
      finishReport report)
  | .visit addr report (record :: rest) all =>
      visitRecord env addr report record rest all
  | .save input => do
      match ← (do
        let encrypted ← Prog.ofExcept (checkInput env input)
        (saveRecord env input encrypted).mapError .wrap :
          Handler Record).attempt with
      | .ok record =>
          if recordDoesDDNS record.purpose then pure (.current record)
          else pure (.finish record)
      | .error err => failWith err
  | .current record => do
      match ← (getCurrentAddress.mapError .wrap).attempt with
      | .ok addr =>
          match addr.ipv4 with
          | some ipv4 => pure (.compare addr ipv4 record)
          | none => failWith (.because "failed to refresh record"
              (.newError noIPv4))
      | .error err => failWith (.because "failed to refresh record" err)
  | .compare addr ipv4 record => do
      match ← (fetchRecord env record).attempt with
      | .ok found =>
          if (found.bind fun rrset => rrset.values.head?) = some ipv4 then
            pure (.finish record)
          else pure (.read addr record .save)
      | .error err => failWith (.because "failed to refresh record" err)
  | .read addr record k => do
      match ← (readRRSet env record).attempt with
      | .ok found => pure (.write addr record found k)
      | .error err => k.resume env addr record (.error err)
  | .write addr record found k => do
      match ← (writeRRSet addr record found).attempt with
      | .ok _ => pure (.place addr record k)
      | .error err => k.resume env addr record (.error err)
  | .place addr record k => do
      let u ← (placeRecord addr record).attempt
      k.resume env addr record u
  | .finish record => ended (do
      issueAfterSave env record
      answer record)

/-- At most `n` statements of a call, one after the other. -/
def Pc.runFor (env : Env) : Nat → Pc → Handler Pc
  | _, .returned r => pure (.returned r)
  | 0, pc => pure pc
  | n + 1, pc => do
      let pc ← pc.next env
      pc.runFor env n

/-! ## Calls that nothing interrupts -/

/-- Once `q` has been carried out, the statements that are left make it `P`. -/
def Leads (env : Env) (q P : Handler Pc) : Prop :=
  ∀ o s, ∃ n, (q >>= fun pc => pc.runFor env n) o s = P o s

section Leads

variable {env : Env}

theorem leads_bind {α : Type} (p : Handler α) {g Q : α → Handler Pc}
    (h : ∀ a, Leads env (g a) (Q a)) : Leads env (p >>= g) (p >>= Q) := by
  intro o s
  simp only [Prog.bind_apply]
  rcases p o s with ⟨err | a, t⟩
  · exact ⟨0, rfl⟩
  · exact h a o t

theorem leads_returned (r : Except GoError Unit) :
    Leads env (pure (.returned r)) (pure (.returned r)) :=
  fun _ _ => ⟨0, rfl⟩

theorem leads_ended {α : Type} (p : Handler α) :
    Leads env (ended p) (ended p) :=
  leads_bind p.attempt fun _ => leads_returned _

private def Pc.isReturned : Pc → Bool
  | .returned _ => true
  | _ => false

/-- The next statement is taken. -/
theorem leads_next {pc : Pc} {P : Handler Pc} (hgoes : pc.isReturned = false)
    (h : Leads env (pc.next env) P) : Leads env (pure pc) P := by
  intro o s
  obtain ⟨n, hn⟩ := h o s
  refine ⟨n + 1, ?_⟩
  rw [← hn, pure_bind]
  cases pc with
  | returned r => cases hgoes
  | _ => rfl

/-! ### `UpdateRecord` -/

theorem updateRecord_eq (addr : Address) (record : Record) :
    updateRecord env record addr = (do
      let found ← readRRSet env record
      writeRRSet addr record found
      placeRecord addr record) := by
  unfold updateRecord readRRSet placeRecord upsertResourceRecordSet
  simp only [Prog.mapError_bind, bind_assoc]
  refine bind_congr fun _ => bind_congr fun found => ?_
  cases found with
  | none => rfl
  | some _ => rfl

/-- The statements of `UpdateRecord`, whatever its caller makes of it. -/
theorem leads_read {addr : Address} {record : Record} {k : After}
    {Q : Except GoError Record → Handler Pc}
    (h : ∀ u, Leads env (k.resume env addr record u) (Q u)) :
    Leads env (pure (.read addr record k))
      ((updateRecord env record addr).attempt >>= Q) := by
  have hplace : Leads env (pure (.place addr record k))
      ((placeRecord addr record).attempt >>= Q) :=
    leads_next rfl (leads_bind _ h)
  have hwrite : ∀ found, Leads env (pure (.write addr record found k)) (do
      let u ← (do
        writeRRSet addr record found
        placeRecord addr record : Handler Record).attempt
      Q u) := by
    intro found
    rw [Prog.attempt_bind, bind_assoc]
    refine leads_next rfl (leads_bind _ fun r => ?_)
    cases r with
    | error err => exact h (.error err)
    | ok _ => exact hplace
  rw [updateRecord_eq, Prog.attempt_bind, bind_assoc]
  refine leads_next rfl (leads_bind _ fun r => ?_)
  cases r with
  | error err => exact h (.error err)
  | ok found => exact hwrite found

/-! ### `UpdateAddress` -/

theorem resolvedPair_cases (env : Env) :
    (∃ err, UpdateAddress.resolve env.consensus4 env.consensus6 = .error err ∧
        resolvedPair env = .error err.wrap) ∨
      ∃ p : Pair, UpdateAddress.resolve env.consensus4 env.consensus6 =
        .ok (p.ipv4, p.ipv6) ∧ resolvedPair env = .ok p := by
  unfold resolvedPair
  split
  · next err h => exact .inl ⟨err, h, rfl⟩
  · next pair h => exact .inr ⟨_, h, rfl⟩

theorem updateAddress_eq (env : Env) :
    updateAddress env = (do
      let p ← Prog.ofExcept (resolvedPair env)
      (saveAddress env p.ipv4 p.ipv6).mapError notSaved) := by
  unfold updateAddress
  rcases resolvedPair_cases env with ⟨err, hres, hpair⟩ | ⟨p, hres, hpair⟩
  · rw [hres, hpair]
    rfl
  · rw [hres, hpair]
    rfl

/-- The statements of `UpdateAddress`, whatever its caller makes of it. -/
theorem leads_resolve {job : Job} {Q : Except GoError Address → Handler Pc}
    (hfailed : ∀ err, Leads env (job.failed env err) (Q (.error err)))
    (hstored : ∀ a, Leads env (pure (job.stored a)) (Q (.ok a))) :
    Leads env (pure (.resolve job)) ((updateAddress env).attempt >>= Q) := by
  have hreread : Leads env (pure (.reread job))
      (((getCurrentAddress.mapError .wrap).mapError notSaved).attempt >>=
        Q) := by
    rw [Prog.attempt_mapError notSaved, bind_assoc]
    refine leads_next rfl (leads_bind _ fun r => ?_)
    cases r with
    | error err => exact hfailed (notSaved err)
    | ok a => exact hstored a
  have hreset : ∀ p : Pair, Leads env (pure (.reset job p))
      (((replaceAddress env p.ipv4 p.ipv6).mapError notSaved).attempt >>=
        Q) := by
    intro p
    have hcreate : Leads env (pure (.create job p))
        (((do
          let _ ← (createAddress env (nullString p.ipv4) (nullString p.ipv6)
            true).mapError .wrap
          getCurrentAddress.mapError .wrap : Handler Address).mapError
            notSaved).attempt >>= Q) := by
      rw [Prog.mapError_bind, Prog.attempt_bind, Prog.attempt_mapError notSaved,
        bind_assoc, bind_assoc]
      refine leads_next rfl (leads_bind _ fun r => ?_)
      cases r with
      | error err => exact hfailed (notSaved err)
      | ok _ => exact hreread
    rw [replaceAddress, Prog.mapError_bind, Prog.attempt_bind,
      Prog.attempt_mapError notSaved, bind_assoc, bind_assoc]
    refine leads_next rfl (leads_bind _ fun r => ?_)
    cases r with
    | error err => exact hfailed (notSaved err)
    | ok _ => exact hcreate
  rw [updateAddress_eq, Prog.attempt_bind, bind_assoc, Prog.attempt_ofExcept,
    pure_bind]
  refine leads_next rfl ?_
  rw [Pc.next]
  cases resolvedPair env with
  | error err => exact hfailed err
  | ok p =>
      show Leads env (pure (.scan job p))
        (((saveAddress env p.ipv4 p.ipv6).mapError notSaved).attempt >>= Q)
      rw [saveAddress, Prog.mapError_bind, Prog.attempt_bind,
        Prog.attempt_mapError notSaved, bind_assoc, bind_assoc]
      refine leads_next rfl (leads_bind _ fun r => ?_)
      cases r with
      | error err => exact hfailed (notSaved err)
      | ok addr =>
          rw [pure_bind]
          dsimp only [Except.mapError]
          split
          · exact hstored addr
          · exact hreset p

/-! ### The calls -/

/-- The API's `RefreshAddress`. -/
theorem leads_address :
    Leads env (pure (.resolve .address))
      (ended (Server.refreshAddress env)) := by
  have hended : ended (Server.refreshAddress env) =
      (updateAddress env).attempt >>= fun r => pure (.returned
        ((r.mapError (.because "failed to refresh address")).map
          fun _ => ())) := by
    simp only [ended, Server.refreshAddress, Prog.attempt_bind,
      Prog.attempt_mapError, bind_assoc, pure_bind]
    refine bind_congr fun r => ?_
    cases r with
    | error err => rfl
    | ok a => rfl
  rw [hended]
  exact leads_resolve (fun _ => leads_returned _) fun _ => leads_returned _

/-- The API's `RefreshRecord`. -/
theorem leads_server (id : Int) :
    Leads env (pure (.load id)) (ended (Server.refreshRecord env id)) := by
  simp only [ended, Server.refreshRecord, refreshStored, Prog.attempt_bind,
    Prog.attempt_mapError, bind_assoc, pure_bind]
  refine leads_next rfl (leads_bind _ fun r => ?_)
  cases r with
  | error err => exact leads_returned _
  | ok record =>
      simp only [Except.mapError, bind_assoc]
      refine leads_resolve (fun err => leads_returned _) fun addr => ?_
      simp only [bind_assoc]
      refine leads_read fun u => ?_
      cases u with
      | error err => exact leads_returned _
      | ok record => exact leads_returned _

/-- What follows the refresh of a saved record. -/
private theorem leads_finish (record : Record) :
    Leads env (pure (.finish record)) (ended (do
      issueAfterSave env record
      answer record)) :=
  leads_next rfl (leads_ended _)

/-- What `UpsertRecord` makes of the outcome of `dns.RefreshRecord`. -/
private def refreshed (env : Env) : Except GoError Record → Handler Pc
  | .error err => failWith (.because "failed to refresh record" err)
  | .ok record => ended (do
      issueAfterSave env record
      answer record)

private theorem afterSave_eq (record : Record) :
    ended (afterSave env record) =
      (refreshRecord env record).attempt >>= refreshed env := by
  unfold afterSave
  simp only [ended, Prog.attempt_bind, Prog.attempt_mapError, bind_assoc,
    pure_bind]
  refine bind_congr fun r => ?_
  cases r with
  | error err => rfl
  | ok record =>
      simp only [refreshed, ended, Prog.attempt_bind, bind_assoc]
      rfl

/-- `dns.RefreshRecord` of a saved DDNS record, and the rest of the call. -/
private theorem leads_current {record : Record}
    (hddns : recordDoesDDNS record.purpose = true) :
    Leads env (pure (.current record)) (ended (afterSave env record)) := by
  have hcompare : ∀ addr ipv4, Leads env (pure (.compare addr ipv4 record))
      ((applyCurrent env record addr ipv4).attempt >>= refreshed env) := by
    intro addr ipv4
    rw [applyCurrent, Prog.attempt_bind, bind_assoc]
    refine leads_next rfl (leads_bind _ fun r => ?_)
    cases r with
    | error err => exact leads_returned _
    | ok found =>
        dsimp only
        split
        · exact leads_finish record
        · rw [Prog.attempt_bind, bind_assoc]
          refine leads_read fun u => ?_
          cases u with
          | error err => exact leads_returned _
          | ok record =>
              dsimp only
              rw [Prog.attempt_bind, bind_assoc]
              refine leads_bind _ fun fired => ?_
              cases fired with
              | error err => exact leads_returned _
              | ok _ => exact leads_finish record
  rw [afterSave_eq, refreshRecord, if_pos hddns, Prog.attempt_bind, bind_assoc]
  refine leads_next rfl (leads_bind _ fun r => ?_)
  cases r with
  | error err => exact leads_returned _
  | ok addr =>
      dsimp only
      cases addr.ipv4 with
      | none => exact leads_returned _
      | some ipv4 => exact hcompare addr ipv4

/-- `UpsertRecord`. -/
theorem leads_save (input : RecordInput) :
    Leads env (pure (.save input)) (ended (upsertRecord env input)) := by
  have hsplit : upsertRecord env input = (do
      let record ← (do
        let encrypted ← Prog.ofExcept (checkInput env input)
        (saveRecord env input encrypted).mapError .wrap : Handler Record)
      afterSave env record) := by
    rw [upsertRecord, bind_assoc]
  rw [hsplit, ended, Prog.attempt_bind, bind_assoc]
  refine leads_next rfl (leads_bind _ fun r => ?_)
  cases r with
  | error err => exact leads_returned _
  | ok record =>
      dsimp only
      split
      · next hddns => exact leads_current hddns
      · next hother =>
        show Leads env _ (ended (afterSave env record))
        rw [afterSave_eq, refreshRecord, if_neg hother]
        exact leads_finish record

/-- The loops of `Refresh` and its report. -/
private def loops (env : Env) (addr : Address) (rest all : List Record)
    (report : Report) : Handler Unit := do
  let report ← rest.foldlM (refreshOne env addr) report
  let report ← all.foldlM (certificateOne env) report
  finishReport report

private theorem loops_cons (addr : Address) (record : Record)
    (rest all : List Record) (report : Report) :
    loops env addr (record :: rest) all report =
      refreshOne env addr report record >>= loops env addr rest all := by
  simp only [loops, List.foldlM_cons, bind_assoc]
  rfl

private theorem leads_visit (addr : Address) (all : List Record) :
    ∀ (rest : List Record) (report : Report),
      Leads env (pure (.visit addr report rest all))
        (ended (loops env addr rest all report)) := by
  intro rest
  induction rest with
  | nil => exact fun report => leads_next rfl (leads_ended _)
  | cons record rest ih =>
      intro report
      have hsettle : ∀ status, Leads env
          (settle env addr report record status rest all)
          ((do
            let report ← countResult env record status.result report
            pure { report with records := report.records ++ [status] } :
              Handler Report).attempt >>= fun r =>
            match r with
            | .ok report => ended (loops env addr rest all report)
            | .error err => failWith err) := by
        intro status
        rw [Prog.attempt_bind, bind_assoc]
        refine leads_bind _ fun r => ?_
        cases r with
        | error err => exact leads_returned _
        | ok report => exact ih _
      have hended : ended (loops env addr (record :: rest) all report) =
          (refreshOne env addr report record).attempt >>= fun r =>
            match r with
            | .ok report => ended (loops env addr rest all report)
            | .error err => failWith err := by
        rw [loops_cons, ended, Prog.attempt_bind, bind_assoc]
        refine bind_congr fun r => ?_
        cases r with
        | error err => rfl
        | ok report => rfl
      rw [hended]
      refine leads_next rfl ?_
      rw [Pc.next, visitRecord, refreshOne]
      split
      · rw [refreshRecordStatus]
        cases addr.ipv4 with
        | none => exact hsettle _
        | some ipv4 =>
            dsimp only
            rw [bind_assoc, Prog.attempt_bind, Prog.attempt_attempt, bind_assoc,
              bind_assoc]
            refine leads_bind _ fun r => ?_
            rw [pure_bind]
            cases r with
            | error err => exact hsettle _
            | ok found =>
                dsimp only
                split
                · exact hsettle _
                · rw [bind_assoc, Prog.attempt_bind, Prog.attempt_attempt,
                    bind_assoc, bind_assoc]
                  refine leads_read fun u => ?_
                  rw [pure_bind]
                  cases u with
                  | error err => exact hsettle _
                  | ok _ => exact hsettle _
      · exact ih report

/-- `Refresh`. -/
theorem leads_refresh :
    Leads env (pure (.resolve .pass)) (ended (refresh env)) := by
  rw [ended, refresh, Prog.attempt_bind, Prog.attempt_attempt, bind_assoc,
    bind_assoc]
  refine leads_resolve (fun err => ?_) fun addr => ?_
  · rw [pure_bind]
    exact leads_ended _
  rw [pure_bind]
  dsimp only
  rw [refreshAll, Prog.attempt_bind, Prog.attempt_attempt, bind_assoc,
    bind_assoc]
  refine leads_next rfl (leads_bind _ fun r => ?_)
  rw [pure_bind]
  cases r with
  | error err => exact leads_ended _
  | ok records => exact leads_visit addr records records _

end Leads

end Hdns.Ports.RefreshSteps

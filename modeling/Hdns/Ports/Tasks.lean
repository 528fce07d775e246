import Hdns.Ports.Schema
import Hdns.Verified.ReadOnly

/-!
# Firing the tasks of a record

`FireTasks` runs, one after the other, the enabled tasks of a record whose
trigger matches an event.  Everything a run stores about itself may fail
without consequence; only the statement that lists the tasks decides whether
they are run at all.

A task that includes its certificate reads the row of the record before it makes
its HTTP request, on the context of the caller as everything else; that a task
was executed is a `runTask` event.

## Main results

* `asks_callTask` — the calls of a task, and what comes of them.
* `runTask_follows`, `fireTasks_follows` — which tasks are executed, and what
  else their runs touch, whatever fails.
-/

namespace Hdns.Ports.Tasks

open Hdns.Verified
open Hdns.Verified.GoString
open Hdns.Ports.Schema

/-- The statement `ListEnabledTasksByRecord`; rows are stored in the order of
their creation. -/
def enabledTasks (w : World) (recordID : Int) : List Task :=
  w.tasks.rows.filter fun t => t.recordID == recordID && t.enabled

def listEnabledTasksByRecord (recordID : Int) : Handler (List Task) :=
  .query .listEnabledTasksByRecord .driver fun w =>
    .ok (enabledTasks w recordID)

/-- A row of `task_runs` for the task would refer to a row that is missing: the
task, the record or the job. -/
def dangling (w : World) (task : Task) (certificateJobID : Option Int) : Prop :=
  (w.tasks.find? task.id).isNone ∨ (w.records.find? task.recordID).isNone ∨
    certificateJobID.any fun id => (w.certificateJobs.find? id).isNone

instance (w : World) (task : Task) (certificateJobID : Option Int) :
    Decidable (dangling w task certificateJobID) :=
  inferInstanceAs (Decidable (_ ∨ _ ∨ _))

/-- The statement `CreateTaskRun`, with its foreign keys. -/
def createTaskRun (task : Task) (event : Trigger)
    (certificateJobID : Option Int) (startedAt : Int) : Handler Int :=
  .call .createTaskRun .driver fun w =>
    if dangling w task certificateJobID
    then (.error (.external "Error 1452: foreign key constraint fails"), w)
    else
      (.ok w.taskRuns.next, { w with
        taskRuns := w.taskRuns.insert fun id =>
          ⟨id, task.id, task.recordID, certificateJobID, event, "running",
            none, none, startedAt, none⟩ })

/-- What `UpdateTaskResult` does to a world. -/
def storeResult (id : Int) (lastRun : Int) (lastStatus lastError : NullString)
    (w : World) : World :=
  { w with
    tasks := w.tasks.updateWhere (fun t => t.id == id) fun t =>
      { t with
        lastRun := some lastRun
        lastStatus := lastStatus
        lastError := lastError } }

/-- The statement `UpdateTaskResult`. -/
def updateTaskResult (id : Int) (lastRun : Int)
    (lastStatus lastError : NullString) : Handler Unit :=
  .call .updateTaskResult .driver fun w =>
    (.ok (), storeResult id lastRun lastStatus lastError w)

/-- The statement `FinishTaskRun`. -/
def finishTaskRun (id : Int) (status : GoString)
    (responseStatus error : NullString) (finishedAt : Int) : Handler Unit :=
  .call .finishTaskRun .driver fun w =>
    (.ok (), { w with
      taskRuns := w.taskRuns.updateWhere (fun t => t.id == id) fun t =>
        { t with
          status := status
          responseStatus := responseStatus
          error := error
          finishedAt := some finishedAt } })

/-- `GetCertificateByRecord`. -/
def getCertificateByRecord (recordID : Int) : Handler Certificate :=
  .query .getCertificateByRecord .driver fun w =>
    match w.certificates.rows.find? fun c => c.recordID == recordID with
    | some c => .ok c
    | none => .error .noRows

/-- The row of `loadCertificateMaterial`. -/
def issuedRow (recordID : Int) : Handler Certificate := do
  let cert ← (getCertificateByRecord recordID).mapError
    (.because "no certificate available for this record")
  if cert.certPath = [] ∨ cert.keyPath = [] then
    Prog.throw (.newError "certificate has not been issued yet")
  else pure cert

/-- The certificate row `renderBody` reads. -/
def includedCertificate (task : Task) : Handler (Option Certificate) :=
  if task.includeCertificate then do
    let cert ← (issuedRow task.recordID).mapError .wrap
    pure (some cert)
  else pure none

/-- `client.Do` on the context of the caller. -/
def requestTask (env : Env) (task : Task) (body : GoString) : Handler Int :=
  .query .requestTask .request fun _ => env.requestTask task body

/-- `executeTask` up to the status code of the response. -/
def callTask (env : Env) (task : Task) : Handler Int := do
  Prog.ofExcept (env.taskEndpoint task)
  let certificate ← includedCertificate task
  let w ← Prog.get
  let body ← Prog.ofExcept (env.taskBody w.files task certificate)
  (requestTask env task body).mapError (.because "task request failed")

/-- What `executeTask` returns for the status code of the response. -/
def reported : Except GoError Int → GoString × Option GoError
  | .error err => ([], some err)
  | .ok code =>
      let status := lit (toString code)
      if code < 200 ∨ 300 ≤ code then
        (status, some (.newError (lit "task endpoint returned HTTP " ++ status)))
      else (status, none)

/-- `executeTask`, recorded in the log. -/
def executeTask (env : Env) (task : Task) (event : Trigger) :
    Handler (GoString × Option GoError) := do
  Prog.modify (·.log (.runTask task.id event))
  let response ← (callTask env task).attempt
  pure (reported response)

/-- The end of `runTask`: without a run id there is no history to close. -/
def closeRun (runID : Int) (status : GoString)
    (responseStatus error : NullString) (finishedAt : Int) : Handler Unit :=
  if runID = 0 then pure ()
  else do
    let _ ← (finishTaskRun runID status responseStatus error
      finishedAt).attempt
    pure ()

/-- `runTask`. -/
def runTask (env : Env) (task : Task) (event : Trigger)
    (certificateJobID : Option Int) : Handler Unit := do
  let startedAt := env.now
  let created ← (createTaskRun task event certificateJobID startedAt).attempt
  -- a failed insert leaves the zero id
  let runID := created.toOption.getD 0
  let outcome ← executeTask env task event
  let responseStatus := nullString outcome.1
  let lastError := outcome.2.map env.errorText
  let _ ← (updateTaskResult task.id startedAt responseStatus
    lastError).attempt
  closeRun runID (if outcome.2.isSome then "failed" else "success")
    responseStatus lastError env.now

/-- The task fires on the event. -/
def fires (task : Task) (event : Trigger) : Bool :=
  task.triggerOn == event || task.triggerOn == triggerBoth

/-- `FireTasks`: failures are logged and never reach the caller. -/
def fireTasks (env : Env) (recordID : Int) (event : Trigger)
    (certificateJobID : Option Int) : Handler Unit := do
  match ← (listEnabledTasksByRecord recordID).attempt with
  | .error _ => pure ()
  | .ok tasks =>
      tasks.forM fun task =>
        if fires task event then runTask env task event certificateJobID
        else pure ()

/-! ## The calls of a task -/

/-- What `issuedRow` returns where its statement gets through. -/
def issued (w : World) (recordID : Int) : Except GoError Certificate :=
  match w.certificates.rows.find? fun c => c.recordID == recordID with
  | none =>
      .error (.because "no certificate available for this record" .noRows)
  | some cert =>
      if cert.certPath = [] ∨ cert.keyPath = [] then
        .error (.newError "certificate has not been issued yet")
      else .ok cert

/-- The certificate row a task includes. -/
def included (w : World) (task : Task) : Except GoError (Option Certificate) :=
  if task.includeCertificate then
    ((issued w task.recordID).mapError .wrap).map some
  else .ok none

/-- The body of the request for a task, where the statement gets through. -/
def builtBody (env : Env) (w : World) (task : Task) :
    Except GoError GoString := do
  env.taskEndpoint task
  let certificate ← included w task
  env.taskBody w.files task certificate

/-- What comes of the webhook call of a task, where it gets through. -/
def response (env : Env) (w : World) (task : Task) : Except GoError Int := do
  let body ← builtBody env w task
  (env.requestTask task body).mapError (.because "task request failed")

/-- The statement for the certificate row is reached and made. -/
def readsRow (env : Env) (task : Task) : Bool :=
  (env.taskEndpoint task).isOk && task.includeCertificate

/-- The calls on the context that `executeTask` makes: the statement for the
certificate row, and the request if it can be built. -/
def calls (env : Env) (w : World) (task : Task) : Nat :=
  (if readsRow env task then 1 else 0) +
    if (builtBody env w task).isOk then 1 else 0

section Task

variable {env : Env} {w : World} {task : Task}

theorem asks_issuedRow (w : World) (recordID : Int) :
    Prog.Asks w 1 (issued w recordID) (issuedRow recordID) := by
  have hread : Prog.Asks w 1 _ ((getCertificateByRecord recordID).mapError
      (.because "no certificate available for this record")) :=
    .mapError (.query _) _
  unfold issued issuedRow
  cases hrow : w.certificates.rows.find? fun c => c.recordID == recordID with
  | none =>
      simp only [hrow] at hread
      exact hread.bind_error _
  | some cert =>
      simp only [hrow] at hread
      apply hread.bind (j := 0)
      show Prog.Asks w 0 (if cert.certPath = [] ∨ cert.keyPath = [] then _
        else _) _
      split
      · exact .throw _
      · exact .pure cert

theorem asks_includedCertificate (w : World) (task : Task) :
    Prog.Asks w (if task.includeCertificate then 1 else 0) (included w task)
      (includedCertificate task) := by
  unfold included includedCertificate
  by_cases htask : task.includeCertificate = true
  · rw [if_pos htask, if_pos htask, if_pos htask]
    have hrow := (asks_issuedRow w task.recordID).mapError GoError.wrap
    cases hissued : (issued w task.recordID).mapError GoError.wrap with
    | error err =>
        rw [hissued] at hrow
        exact hrow.bind_error _
    | ok cert =>
        rw [hissued] at hrow
        exact hrow.bind (j := 0) (.pure (some cert))
  · rw [if_neg htask, if_neg htask, if_neg htask]
    exact .pure none

/-- **The calls of a task**, and what comes of them. -/
theorem asks_callTask (env : Env) (w : World) (task : Task) :
    Prog.Asks w (calls env w task) (response env w task) (callTask env task) := by
  have hrow := asks_includedCertificate w task
  unfold callTask calls response builtBody readsRow
  cases env.taskEndpoint task with
  | error err => exact Prog.Asks.throw err
  | ok _ =>
      cases hincluded : included w task with
      | error err =>
          rw [hincluded] at hrow
          exact hrow.bind_error _
      | ok certificate =>
          rw [hincluded] at hrow
          apply hrow.bind
          apply Prog.Asks.get_bind
          show Prog.Asks w (if (env.taskBody w.files task certificate).isOk then
            1 else 0) (env.taskBody w.files task certificate >>= fun body =>
              (env.requestTask task body).mapError _) _
          cases env.taskBody w.files task certificate with
          | error err => exact Prog.Asks.throw err
          | ok body =>
              have hsend : Prog.Asks w 1 (env.requestTask task body)
                  (requestTask env task body) :=
                .query fun _ => env.requestTask task body
              exact hsend.mapError _

/-- The world is left alone, whatever fails. -/
theorem callTask_keeps (o : Oracle Call) (s : Sys World) :
    (callTask env task).wp o s fun _ t =>
      t.state = s.state ∧ s.clock ≤ t.clock :=
  Prog.wp_mono ((asks_callTask env s.state task).sound o s.clock)
    fun _ _ h => ⟨h.1, h.2.1⟩

end Task

/-! ## What is run, whatever fails -/

/-- A relation between worlds, given what the log has grown by, that allows the
statements of a run. -/
structure Follows (A : List Event → World → World → Prop) : Prop where
  nil : ∀ w, A [] w w
  append : ∀ es es' w₁ w₂ w₃, A es w₁ w₂ → A es' w₂ w₃ → A (es ++ es') w₁ w₃
  runs : ∀ (w : World) (t : Table TaskRun), A [] w { w with taskRuns := t }
  ran : ∀ (w : World) id event,
    A [.runTask id event] w (w.log (.runTask id event))
  result : ∀ w id lastRun lastStatus lastError,
    A [] w (storeResult id lastRun lastStatus lastError w)

section Follows

variable {A : List Event → World → World → Prop} (hA : Follows A)
  (env : Env) (event : Trigger) (job : Option Int) {o : Oracle Call}
include hA

/-- A statement that is not logged. -/
private theorem call_follows {α : Type} {c : Call} {err : GoError}
    {act : World → Except GoError α × World} (h : ∀ w, A [] w (act w).2)
    (s : Sys World) :
    (Prog.call c err act).wp o s fun _ t => A [] s.state t.state :=
  Prog.wp_call_of (h _) (fun _ => hA.nil _) fun _ => h _

/-- A run executes its task once. -/
theorem runTask_follows (task : Task) (s : Sys World) :
    (runTask env task event job).wp o s fun r t =>
      r = .ok () ∧ A [.runTask task.id event] s.state t.state := by
  unfold runTask
  rw [Prog.wp_bind, Prog.wp_attempt]
  refine Prog.wp_mono (call_follows hA (fun w => ?_) s) ?_
  · split
    · exact hA.nil w
    · exact hA.runs w _
  intro created t ht
  show Prog.wp _ o t _
  rw [executeTask]
  simp only [Prog.wp_bind, Prog.wp_modify, Prog.wp_pure, Prog.wp_attempt]
  have hran : A [.runTask task.id event] s.state
      (t.state.log (.runTask task.id event)) :=
    hA.append _ _ _ _ _ ht (hA.ran t.state task.id event)
  refine Prog.wp_mono (callTask_keeps o _) ?_
  rintro response ⟨_, clock⟩ ⟨rfl, _⟩
  refine Prog.wp_mono (call_follows hA (fun w => hA.result w _ _ _ _) _) ?_
  intro _ u hu
  have hstored : A [.runTask task.id event] s.state u.state :=
    hA.append _ _ _ _ _ hran hu
  show Prog.wp _ o u _
  unfold closeRun
  split
  · exact ⟨rfl, hstored⟩
  · rw [Prog.wp_bind, Prog.wp_attempt]
    refine Prog.wp_mono (call_follows hA (fun w => hA.runs w _) u) ?_
    exact fun _ v hv => ⟨rfl, hA.append _ _ _ _ _ hstored hv⟩

/-- The loop runs the tasks that fire, in order. -/
theorem runTasks_follow :
    ∀ (tasks : List Task) (s : Sys World),
      (tasks.forM fun task =>
        if fires task event then runTask env task event job
        else pure ()).wp o s fun r t => r = .ok () ∧
          A ((tasks.filter (fires · event)).map fun task =>
            .runTask task.id event) s.state t.state := by
  intro tasks
  induction tasks with
  | nil => exact fun s => ⟨rfl, hA.nil _⟩
  | cons task tasks ih =>
      intro s
      simp only [List.forM, Prog.wp_bind]
      by_cases hfires : fires task event = true
      · simp only [hfires, if_true]
        refine Prog.wp_mono (runTask_follows hA env event job task s) ?_
        rintro r t ⟨rfl, ht⟩
        refine Prog.wp_mono (ih t) ?_
        rintro r u ⟨rfl, hu⟩
        refine ⟨rfl, ?_⟩
        simp only [List.filter_cons, hfires, if_true, List.map_cons]
        exact hA.append _ _ _ _ _ ht hu
      · simp only [if_neg hfires, Prog.wp_pure]
        refine Prog.wp_mono (ih s) ?_
        rintro r u ⟨rfl, hu⟩
        refine ⟨rfl, ?_⟩
        simp only [List.filter_cons, if_neg hfires]
        exact hu

/-- Once the list is read, every task that fires is run, in order, whatever
becomes of the others and of the statements between them. -/
theorem fireTasks_follows (recordID : Int) (s : Sys World) :
    (fireTasks env recordID event job).wp o s fun r t =>
      r = .ok () ∧ A
        (if o s.clock .listEnabledTasksByRecord = .none then
          ((enabledTasks s.state recordID).filter (fires · event)).map
            fun task => .runTask task.id event
        else []) s.state t.state := by
  unfold fireTasks
  rw [Prog.wp_bind, Prog.wp_attempt]
  by_cases ho : o s.clock .listEnabledTasksByRecord = .none
  · rw [if_pos ho]
    refine (Prog.wp_query_none ho).mpr ?_
    exact runTasks_follow hA env event job _ _
  · rw [if_neg ho]
    exact (Prog.wp_query_faulty ho).mpr ⟨rfl, hA.nil _⟩

end Follows

section Keeps

variable {o : Oracle Call} {R : World → World → Prop}

theorem runTask_keeps (hR : Follows fun _ => R) (env : Env) (task : Task)
    (event : Trigger) (job : Option Int) :
    Prog.Keeps o R (runTask env task event job) :=
  fun s => Prog.wp_mono (runTask_follows hR env event job task s)
    fun _ _ h => h.2

theorem fireTasks_keeps (hR : Follows fun _ => R) (env : Env) (recordID : Int)
    (event : Trigger) (job : Option Int) :
    Prog.Keeps o R (fireTasks env recordID event job) :=
  fun s => Prog.wp_mono (fireTasks_follows hR env event job recordID s)
    fun _ _ h => h.2

end Keeps

end Hdns.Ports.Tasks

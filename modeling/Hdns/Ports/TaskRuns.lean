import Hdns.Ports.Tasks

/-!
# Task runs under a cancelled context

A run is created as running, the task is executed, its result is stored, and the
run is closed, all of them on the caller's context.  The errors of the
statements are only logged.  If the context is cancelled behind the statement
that creates the run and before or at the one that closes it, the run stays
open; an issuance detaches its context for this reason.

## Main results

* `fireTasks_executes` — which tasks are executed, whatever fails.
* `fired_runs_are_closed_iff` — when every run that was created is closed.
-/

namespace Hdns.Ports.TaskRuns

open Hdns.Verified
open Hdns.Verified.GoString
open Hdns.Ports.Schema
open Hdns.Ports.Tasks

/-- The tasks an event fires, in order. -/
def matching (w : World) (recordID : Int) (event : Trigger) : List Task :=
  (enabledTasks w recordID).filter (fires · event)

/-- A loop that skips some elements is a loop over the others. -/
private theorem forM_filter {α : Type} (p : α → Bool) (f : α → Handler Unit) :
    ∀ as : List α,
      (as.forM fun a => if p a then f a else pure ()) =
        (as.filter p).forM f := by
  intro as
  induction as with
  | nil => rfl
  | cons a as ih =>
      simp only [List.forM, ih]
      by_cases ha : p a = true
      · rw [List.filter_cons_of_pos ha, if_pos ha]
        rfl
      · rw [List.filter_cons_of_neg ha, if_neg ha]
        rfl

theorem fireTasks_eq (env : Env) (recordID : Int) (event : Trigger)
    (job : Option Int) :
    fireTasks env recordID event job = (do
      match ← (listEnabledTasksByRecord recordID).attempt with
      | .error _ => pure ()
      | .ok tasks =>
          (tasks.filter (fires · event)).forM fun task =>
            runTask env task event job) := by
  unfold fireTasks
  refine bind_congr fun listed => ?_
  cases listed with
  | error err => rfl
  | ok tasks => exact forM_filter (fires · event) _ tasks

/-! ## Which tasks are executed -/

section Executed

variable (env : Env) (event : Trigger) (job : Option Int) {o : Oracle Call}

/-- The log has grown by these events. -/
def Logged (es : List Event) (w w' : World) : Prop :=
  w'.events = w.events ++ es

theorem Logged.nil (w : World) : Logged [] w w := by simp [Logged]

theorem Logged.trans {es es' : List Event} {w₁ w₂ w₃ : World}
    (h : Logged es w₁ w₂) (h' : Logged es' w₂ w₃) :
    Logged (es ++ es') w₁ w₃ := by
  unfold Logged at *
  rw [h', h, List.append_assoc]

theorem follows_logged : Follows Logged where
  nil := Logged.nil
  append := fun _ _ _ _ _ => Logged.trans
  runs := fun _ _ => by simp [Logged]
  ran := fun _ _ _ => rfl
  result := fun _ _ _ _ _ => by simp [Logged, storeResult]

/-- **The tasks that are executed**: once the list is read, every matching one,
in order, whatever becomes of the others and of the statements between them. -/
theorem fireTasks_executes (recordID : Int) (s : Sys World) :
    (fireTasks env recordID event job).wp o s fun r t =>
      r = .ok () ∧ Logged
        (if o s.clock .listEnabledTasksByRecord = .none then
          (matching s.state recordID event).map fun task =>
            .runTask task.id event
        else []) s.state t.state := by
  exact fireTasks_follows follows_logged env event job recordID s

end Executed

/-! ## One run -/

section Run

variable {env : Env} {task : Task} {event : Trigger} {job : Option Int}
  {n : Nat} {s : Sys World}

/-- What `executeTask` reports in a world whose calls get through. -/
def outcome (env : Env) (w : World) (task : Task) : GoString × Option GoError :=
  reported (response env w task)

/-- The status a run should be closed with. -/
def closingStatus (env : Env) (w : World) (task : Task) : GoString :=
  if (outcome env w task).2.isSome then "failed" else "success"

/-- The row `CreateTaskRun` inserts. -/
def openedRun (env : Env) (task : Task) (event : Trigger) (job : Option Int)
    (id : Int) : TaskRun :=
  ⟨id, task.id, task.recordID, job, event, "running", none, none, env.now,
    none⟩

/-- The row `FinishTaskRun` leaves. -/
def closedRun (env : Env) (w : World) (task : Task) (event : Trigger)
    (job : Option Int) (id : Int) : TaskRun :=
  { openedRun env task event job id with
    status := closingStatus env w task
    responseStatus := nullString (outcome env w task).1
    error := (outcome env w task).2.map env.errorText
    finishedAt := some env.now }

/-- The calls of a run on the context: the statement that creates it, those of
`executeTask`, the result of the task, and the statement that closes it. -/
def duration (env : Env) (w : World) (task : Task) : Nat :=
  calls env w task + 3

/-- What a run for a task can refer to stays, and what its request is built
of. -/
structure RefsKept (w w' : World) : Prop where
  dangling : ∀ task job, dangling w' task job ↔ dangling w task job
  certificates : w'.certificates = w.certificates
  files : w'.files = w.files

theorem RefsKept.refl (w : World) : RefsKept w w :=
  ⟨fun _ _ => Iff.rfl, rfl, rfl⟩

theorem RefsKept.trans {w₁ w₂ w₃ : World} (h : RefsKept w₁ w₂)
    (h' : RefsKept w₂ w₃) : RefsKept w₁ w₃ where
  dangling := fun t j => (h'.dangling t j).trans (h.dangling t j)
  certificates := h'.certificates.trans h.certificates
  files := h'.files.trans h.files

/-- The request of a task is built of its certificate row and the files. -/
theorem RefsKept.builtBody {w w' : World} (h : RefsKept w w') (env : Env)
    (task : Task) : builtBody env w' task = builtBody env w task := by
  unfold Tasks.builtBody included issued
  rw [h.certificates, h.files]

theorem RefsKept.closingStatus {w w' : World} (h : RefsKept w w') (env : Env)
    (task : Task) : closingStatus env w' task = closingStatus env w task := by
  unfold TaskRuns.closingStatus outcome response
  rw [h.builtBody]

theorem RefsKept.duration {w w' : World} (h : RefsKept w w') (env : Env)
    (task : Task) : duration env w' task = duration env w task := by
  unfold TaskRuns.duration calls
  rw [h.builtBody]

/-- What executing a task comes to: its outcome if the context lasts for its
calls, and else something at a time when the context has ended. -/
theorem executeTask_spec (hn : s.clock ≤ n) :
    (executeTask env task event).wp (.cancelledAt n) s fun r t =>
      t.state = s.state.log (.runTask task.id event) ∧ ∃ res, r = .ok res ∧
        (s.clock + calls env s.state task ≤ n ∧
            res = outcome env s.state task ∧
            t.clock = s.clock + calls env s.state task ∨
          n < s.clock + calls env s.state task ∧ n ≤ t.clock) := by
  unfold executeTask
  rw [Prog.wp_bind, Prog.wp_modify, Prog.wp_bind, Prog.wp_attempt]
  have hasks := asks_callTask env (s.state.log (.runTask task.id event)) task
  change Prog.Asks _ (calls env s.state task) (response env s.state task) _ at hasks
  have hstate := hasks.sound (.cancelledAt n) s.clock
  by_cases hlast : s.clock + calls env s.state task ≤ n
  · have hlive := hasks.live (.cancelledAt n) s.clock fun i hi d =>
      Oracle.cancelledAt_of_lt (by omega) d
    unfold Prog.wp
    rw [hlive]
    exact ⟨rfl, _, rfl, .inl ⟨hlast, rfl, rfl⟩⟩
  · have hcut := hasks.cut n s.clock hn (by omega)
    refine Prog.wp_mono (Prog.wp_and hstate hcut) ?_
    intro r t ht
    exact ⟨ht.1.1, _, rfl, .inr ⟨by omega, ht.2.2⟩⟩

/-- The context lasts until the run is closed. -/
theorem runTask_closed (hrefs : ¬dangling s.state task job)
    (hpos : 0 < s.state.taskRuns.next)
    (hn : s.clock + duration env s.state task ≤ n) :
    (runTask env task event job).wp (.cancelledAt n) s fun _ t =>
      t.clock = s.clock + duration env s.state task ∧
        t.state.taskRuns.rows = s.state.taskRuns.rows ++
          [closedRun env s.state task event job s.state.taskRuns.next] ∧
        t.state.taskRuns.next = s.state.taskRuns.next + 1 := by
  unfold duration at hn ⊢
  unfold runTask
  rw [Prog.wp_bind, Prog.wp_attempt]
  refine (Prog.wp_call_none (Oracle.cancelledAt_of_lt (by omega) _)).mpr ?_
  rw [if_neg hrefs]
  simp only
  rw [Prog.wp_bind]
  have hstart : s.clock + 1 ≤ n := by omega
  refine Prog.wp_mono (executeTask_spec hstart) ?_
  rintro _ ⟨w, c⟩ ⟨rfl, res, rfl, ⟨_, rfl, rfl⟩ | ⟨hcut, _⟩⟩
  · show Prog.wp ((updateTaskResult _ _ _ _).attempt >>= _) _
      ⟨_, s.clock + 1 + calls env s.state task⟩ _
    rw [Prog.wp_bind, Prog.wp_attempt]
    refine (Prog.wp_call_none (Oracle.cancelledAt_of_lt (by simp; omega)
      _)).mpr ?_
    show Prog.wp (closeRun s.state.taskRuns.next _ _ _ _) _ _ _
    rw [closeRun, if_neg (by omega), Prog.wp_bind, Prog.wp_attempt]
    refine (Prog.wp_call_none (Oracle.cancelledAt_of_lt (by simp; omega)
      _)).mpr ?_
    refine ⟨?_, Table.rows_updateWhere_insert _ _ (by intro; rfl), rfl⟩
    show s.clock + 1 + calls env s.state task + 1 + 1 = _
    omega
  · change n < s.clock + 1 + calls env s.state task at hcut
    omega

/-- The end of a run whose context does not last: the runs stay as they are. -/
private theorem closeRun_cut {u : Sys World} {id : Int} {runs : List TaskRun}
    (hid : id ≠ 0) (hcut : n ≤ u.clock) (hruns : u.state.taskRuns.rows = runs)
    (status : GoString) (responseStatus error : NullString)
    (finishedAt : Int) :
    (closeRun id status responseStatus error finishedAt).wp (.cancelledAt n) u
      fun _ t => n ≤ t.clock ∧ t.state.taskRuns.rows = runs := by
  rw [closeRun, if_neg hid, Prog.wp_bind, Prog.wp_attempt]
  refine (Prog.wp_call_fails (Oracle.cancelledAt_of_le hcut _)).mpr ⟨?_, hruns⟩
  show n ≤ u.clock + 1
  omega

/-- The context ends behind the creation of the run: it stays open. -/
theorem runTask_cut (hrefs : ¬dangling s.state task job)
    (hpos : 0 < s.state.taskRuns.next) (hn : s.clock < n)
    (hcut : n < s.clock + duration env s.state task) :
    (runTask env task event job).wp (.cancelledAt n) s fun _ t =>
      n ≤ t.clock ∧
        t.state.taskRuns.rows = s.state.taskRuns.rows ++
          [openedRun env task event job s.state.taskRuns.next] := by
  unfold duration at hcut
  unfold runTask
  rw [Prog.wp_bind, Prog.wp_attempt]
  refine (Prog.wp_call_none (Oracle.cancelledAt_of_lt hn _)).mpr ?_
  rw [if_neg hrefs]
  simp only
  rw [Prog.wp_bind]
  refine Prog.wp_mono (executeTask_spec hn) ?_
  rintro _ ⟨w, c⟩ ⟨rfl, res, rfl, hends⟩
  have hlate : n ≤ c + 1 := by
    change s.clock + 1 + calls env s.state task ≤ n ∧ _ ∧
      c = s.clock + 1 + calls env s.state task ∨ _ ∧ n ≤ c at hends
    omega
  have hid : s.state.taskRuns.next ≠ 0 := by omega
  show Prog.wp ((updateTaskResult _ _ _ _).attempt >>= _) _ ⟨_, c⟩ _
  rw [Prog.wp_bind, Prog.wp_attempt]
  -- the result of the task is stored or not
  apply Prog.wp_call_of
  · exact closeRun_cut hid hlate rfl _ _ _ _
  · exact fun _ => closeRun_cut hid hlate rfl _ _ _ _
  · exact fun _ => closeRun_cut hid hlate rfl _ _ _ _

/-- No run is created: the context has ended, or the run would refer to a row
that is missing. -/
theorem runTask_uncreated (h : n ≤ s.clock ∨ dangling s.state task job) :
    (runTask env task event job).wp (.cancelledAt n) s fun _ t =>
      s.clock ≤ t.clock ∧ t.state.taskRuns = s.state.taskRuns := by
  have hcreate : (createTaskRun task event job env.now).wp (.cancelledAt n) s
      fun r t => (∃ err, r = .error err) ∧ t = ⟨s.state, s.clock + 1⟩ := by
    by_cases hn : n ≤ s.clock
    · exact (Prog.wp_call_fails (Oracle.cancelledAt_of_le hn _)).mpr
        ⟨⟨_, rfl⟩, rfl⟩
    · refine (Prog.wp_call_none (Oracle.cancelledAt_of_lt (by omega) _)).mpr ?_
      rw [if_pos (h.resolve_left hn)]
      exact ⟨⟨_, rfl⟩, rfl⟩
  unfold runTask
  rw [Prog.wp_bind, Prog.wp_attempt]
  refine Prog.wp_mono hcreate ?_
  rintro _ _ ⟨⟨err, rfl⟩, rfl⟩
  show Prog.wp _ _ _ _
  rw [executeTask]
  simp only [Prog.wp_bind, Prog.wp_modify, Prog.wp_pure, Prog.wp_attempt]
  refine Prog.wp_mono (callTask_keeps (.cancelledAt n) _) ?_
  rintro response ⟨_, c⟩ ⟨rfl, hclock⟩
  have hlater : s.clock ≤ c + 1 := by
    have hstarted : s.clock + 1 ≤ c := hclock
    omega
  apply Prog.wp_call_of
  · exact ⟨hlater, rfl⟩
  · exact fun _ => ⟨hlater, rfl⟩
  · exact fun _ => ⟨hlater, rfl⟩

theorem runTask_refs (o : Oracle Call) :
    Prog.Keeps o RefsKept (runTask env task event job) := by
  apply runTask_keeps
  refine ⟨.refl, fun _ _ _ _ _ => .trans,
    fun _ _ => ⟨fun _ _ => Iff.rfl, rfl, rfl⟩,
    fun _ _ _ => ⟨fun _ _ => Iff.rfl, rfl, rfl⟩, ?_⟩
  intro w id lastRun lastStatus lastError
  refine ⟨fun task' job' => ?_, rfl, rfl⟩
  unfold Tasks.dangling
  rw [storeResult, Table.find?_updateWhere, Option.isNone_map]

end Run

/-! ## The loop -/

section Loop

variable {env : Env} {event : Trigger} {job : Option Int} {n : Nat} {w : World}

/-- The runs with ids from `next` on are closed as the webhooks ended that were
called in the world `w`, and are runs of these tasks. -/
def AllClosed (env : Env) (w : World) (tasks : List Task) (next : Int)
    (w' : World) : Prop :=
  ∀ run ∈ w'.taskRuns.rows, next ≤ run.id →
    ∃ task ∈ tasks, run.taskID = task.id ∧
      run.status = closingStatus env w task

/-- The context ends while a run of the loop is open: behind the statement that
creates it, and before or at the one that closes it. -/
def Interrupts (env : Env) (w : World) (n : Nat) : Nat → List Task → Prop
  | _, [] => False
  | clock, task :: tasks =>
      clock < n ∧ n < clock + duration env w task ∨
        Interrupts env w n (clock + duration env w task) tasks

/-- A loop that is interrupted has begun. -/
theorem lt_of_interrupts {clock : Nat} {tasks : List Task}
    (h : Interrupts env w n clock tasks) : clock < n := by
  induction tasks generalizing clock with
  | nil => exact h.elim
  | cons task tasks ih =>
      cases h with
      | inl hhead => exact hhead.1
      | inr hlater =>
          have hlt := ih hlater
          omega

/-- A run never ends a loop: what follows sees the state it leaves, with the
same references. -/
private theorem runTask_then {task : Task} {rest : Handler Unit}
    {o : Oracle Call} {s : Sys World} {R : Sys World → Prop}
    {Q : Except GoError Unit → Sys World → Prop}
    (h : (runTask env task event job).wp o s fun _ t => R t)
    (hrest : ∀ t, R t → RefsKept s.state t.state → rest.wp o t Q) :
    (runTask env task event job >>= fun _ => rest).wp o s Q := by
  have hran := Prog.wp_and (runTask_follows follows_logged env event job task s)
    (Prog.wp_and h (runTask_refs o s))
  refine Prog.wp_bind_of hran (fun err t ht => nomatch ht.1.1) ?_
  exact fun _ t ht => hrest t ht.2.1 ht.2.2

/-- Runs that create nothing. -/
theorem runTasks_uncreated :
    ∀ (tasks : List Task) (s : Sys World),
      (n ≤ s.clock ∨ ∀ task ∈ tasks, dangling s.state task job) →
        (tasks.forM fun task => runTask env task event job).wp
          (.cancelledAt n) s fun _ t =>
            t.state.taskRuns = s.state.taskRuns := by
  intro tasks
  induction tasks with
  | nil => exact fun s _ => rfl
  | cons task tasks ih =>
      intro s h
      have hhead : n ≤ s.clock ∨ dangling s.state task job :=
        h.imp_right fun hall => hall task List.mem_cons_self
      refine runTask_then (runTask_uncreated hhead) ?_
      rintro t ⟨hclock, hruns⟩ hrefs
      refine Prog.wp_mono (ih t ?_) fun _ u hu => hu.trans hruns
      refine h.imp (fun hn => Nat.le_trans hn hclock) fun hall task' hmem => ?_
      exact (hrefs.dangling task' job).mpr
        (hall task' (List.mem_cons_of_mem _ hmem))

/-- A context that interrupts no run: all that are created are closed. -/
theorem runTasks_closed {all : List Task} {next : Int} :
    ∀ (tasks : List Task) (s : Sys World), RefsKept w s.state →
      (∀ task ∈ tasks, task ∈ all) →
      (∀ task ∈ tasks, ¬dangling w task job) →
      0 < s.state.taskRuns.next → ¬Interrupts env w n s.clock tasks →
      AllClosed env w all next s.state →
        (tasks.forM fun task => runTask env task event job).wp
          (.cancelledAt n) s fun _ t => AllClosed env w all next t.state := by
  intro tasks
  induction tasks with
  | nil => exact fun s _ _ _ _ _ h => h
  | cons task tasks ih =>
      intro s hkept hall hrefs hpos hfree hclosed
      rw [Interrupts, not_or] at hfree
      by_cases hn : n ≤ s.clock
      · refine Prog.wp_mono (runTasks_uncreated _ s (.inl hn)) ?_
        intro _ t hruns run hrun
        exact hclosed run (hruns ▸ hrun)
      · have hlong : s.clock + duration env s.state task ≤ n := by
          rw [hkept.duration]
          omega
        have hhead : ¬dangling s.state task job := fun hdangling =>
          hrefs task List.mem_cons_self
            ((hkept.dangling task job).mp hdangling)
        refine runTask_then (runTask_closed hhead hpos hlong) ?_
        rintro t ⟨hclock, hrows, hnext⟩ hstep
        rw [hkept.duration] at hclock
        apply ih t (hkept.trans hstep)
        · exact fun task' h => hall task' (List.mem_cons_of_mem _ h)
        · exact fun task' h => hrefs task' (List.mem_cons_of_mem _ h)
        · omega
        · rw [hclock]
          exact hfree.2
        · intro run hrun hid
          rw [hrows] at hrun
          cases List.mem_append.mp hrun with
          | inl hold => exact hclosed run hold hid
          | inr hnew =>
              obtain rfl := List.mem_singleton.mp hnew
              refine ⟨task, hall task List.mem_cons_self, rfl, ?_⟩
              exact hkept.closingStatus env task

/-- A context that interrupts a run leaves it open. -/
theorem runTasks_open {next : Int} :
    ∀ (tasks : List Task) (s : Sys World), RefsKept w s.state →
      (∀ task ∈ tasks, ¬dangling w task job) →
      0 < s.state.taskRuns.next → next ≤ s.state.taskRuns.next →
      Interrupts env w n s.clock tasks →
        (tasks.forM fun task => runTask env task event job).wp
          (.cancelledAt n) s fun _ t => ∃ run ∈ t.state.taskRuns.rows,
            next ≤ run.id ∧ run.status = lit "running" := by
  intro tasks
  induction tasks with
  | nil => exact fun s _ _ _ _ h => h.elim
  | cons task tasks ih =>
      intro s hkept hrefs hpos hnext hcut
      have hhead : ¬dangling s.state task job := fun hdangling =>
        hrefs task List.mem_cons_self ((hkept.dangling task job).mp hdangling)
      cases hcut with
      | inl hnow =>
          have hshort : n < s.clock + duration env s.state task := by
            rw [hkept.duration]
            exact hnow.2
          refine runTask_then (runTask_cut hhead hpos hnow.1 hshort) ?_
          rintro t ⟨hclock, hrows⟩ -
          -- nothing closes the run any more
          refine Prog.wp_mono (runTasks_uncreated tasks t (.inl hclock))
            fun _ u hruns => ?_
          refine ⟨openedRun env task event job s.state.taskRuns.next, ?_, hnext,
            rfl⟩
          rw [hruns, hrows]
          exact List.mem_append_right _ (List.mem_singleton.mpr rfl)
      | inr hlater =>
          have hlong : s.clock + duration env s.state task ≤ n := by
            rw [hkept.duration]
            exact Nat.le_of_lt (lt_of_interrupts hlater)
          refine runTask_then (runTask_closed hhead hpos hlong) ?_
          rintro t ⟨hclock, _, hnext'⟩ hstep
          rw [hkept.duration] at hclock
          apply ih t (hkept.trans hstep)
          · exact fun task' h => hrefs task' (List.mem_cons_of_mem _ h)
          · omega
          · omega
          · rw [hclock]
            exact hlater

end Loop

/-! ## When every run is closed -/

/-- The record has a row, as has the job the runs are for. -/
def Referred (w : World) (recordID : Int) (job : Option Int) : Prop :=
  (w.records.find? recordID).isSome = true ∧
    ∀ id ∈ job, (w.certificateJobs.find? id).isSome = true

/-- A listed task has a row and belongs to the record. -/
theorem dangling_iff {w : World} {recordID : Int} {event : Trigger}
    {job : Option Int} {task : Task}
    (h : task ∈ matching w recordID event) :
    dangling w task job ↔ ¬Referred w recordID job := by
  obtain ⟨hmem, hcond⟩ := List.mem_filter.mp (List.mem_filter.mp h).1
  have hrecord : task.recordID = recordID := by
    simp only [Bool.and_eq_true, beq_iff_eq] at hcond
    exact hcond.1
  have hrow : w.tasks.find? task.id = some task := Table.find?_of_mem hmem
  unfold dangling Referred
  rw [hrow, hrecord]
  cases job with
  | none => simp
  | some id => simp [imp_iff_not_or]

/-- What holds after the tasks have been fired: every matching one was executed
if the list was read, and every run that was created is closed as its webhook
ended. -/
structure Accounted (env : Env) (recordID : Int) (event : Trigger) (n : Nat)
    (s t : Sys World) : Prop where
  executed : t.state.events = s.state.events ++
    if s.clock < n then
      (matching s.state recordID event).map fun task =>
        Event.runTask task.id event
    else []
  closed : AllClosed env s.state (matching s.state recordID event)
    s.state.taskRuns.next t.state

/-- The context ends behind a statement that has created a run and before or at
the one that closes it. -/
def Interrupted (env : Env) (recordID : Int) (event : Trigger)
    (job : Option Int) (n : Nat) (s : Sys World) : Prop :=
  Referred s.state recordID job ∧
    Interrupts env s.state n (s.clock + 1) (matching s.state recordID event)

/-- No run is new before the loop. -/
theorem allClosed_next (env : Env) (tasks : List Task) (w : World) :
    AllClosed env w tasks w.taskRuns.next w := by
  intro run hrun hid
  have hlt : run.id < w.taskRuns.next := w.taskRuns.fresh run hrun
  omega

/-- An open run is none that is closed as its webhook ended. -/
theorem closingStatus_ne_running (env : Env) (w : World) (task : Task) :
    closingStatus env w task ≠ lit "running" := by
  unfold closingStatus
  split
  · decide
  · decide

section Fired

variable {env : Env} {recordID : Int} {event : Trigger} {job : Option Int}
  {n : Nat} {s : Sys World}

/-- A list that is not read fires nothing. -/
private theorem fireTasks_unlisted (hn : n ≤ s.clock) :
    (fireTasks env recordID event job).wp (.cancelledAt n) s fun _ t =>
      t.state = s.state := by
  rw [fireTasks_eq, Prog.wp_bind, Prog.wp_attempt]
  have ho : Oracle.cancelledAt n s.clock Call.listEnabledTasksByRecord ≠
      .none := by
    rw [Oracle.cancelledAt_of_le hn]
    exact nofun
  exact (Prog.wp_query_faulty ho).mpr rfl

/-- A list that is read fires its matching tasks. -/
private theorem fireTasks_listed (hn : s.clock < n)
    {Q : Except GoError Unit → Sys World → Prop}
    (h : ((matching s.state recordID event).forM fun task =>
      runTask env task event job).wp (.cancelledAt n) ⟨s.state, s.clock + 1⟩
        Q) :
    (fireTasks env recordID event job).wp (.cancelledAt n) s Q := by
  rw [fireTasks_eq, Prog.wp_bind, Prog.wp_attempt]
  exact (Prog.wp_query_none (Oracle.cancelledAt_of_lt hn _)).mpr h

theorem fireTasks_closed (hpos : 0 < s.state.taskRuns.next)
    (h : ¬Interrupted env recordID event job n s) :
    (fireTasks env recordID event job).wp (.cancelledAt n) s fun _ t =>
      AllClosed env s.state (matching s.state recordID event)
        s.state.taskRuns.next t.state := by
  have hstart := allClosed_next env (matching s.state recordID event) s.state
  by_cases hn : n ≤ s.clock
  · refine Prog.wp_mono (fireTasks_unlisted hn) fun _ t ht => ?_
    rw [ht]
    exact hstart
  refine fireTasks_listed (by omega) ?_
  by_cases href : Referred s.state recordID job
  · refine runTasks_closed _ _ (.refl _) (fun _ h => h) (fun task hmem => ?_)
      hpos (fun hcut => h ⟨href, hcut⟩) hstart
    rw [dangling_iff hmem]
    exact fun hnot => hnot href
  · refine Prog.wp_mono (runTasks_uncreated _ _ (.inr fun task hmem => ?_)) ?_
    · exact (dangling_iff hmem).mpr href
    · intro _ t hruns run hrun
      exact hstart run (hruns ▸ hrun)

theorem fireTasks_open (hpos : 0 < s.state.taskRuns.next)
    (h : Interrupted env recordID event job n s) :
    (fireTasks env recordID event job).wp (.cancelledAt n) s fun _ t =>
      ∃ run ∈ t.state.taskRuns.rows, s.state.taskRuns.next ≤ run.id ∧
        run.status = lit "running" := by
  obtain ⟨href, hcut⟩ := h
  have hn : s.clock < n := by
    have hlt := lt_of_interrupts hcut
    omega
  refine fireTasks_listed hn ?_
  refine runTasks_open _ _ (.refl _) (fun task hmem => ?_) hpos
    (Int.le_refl _) hcut
  rw [dangling_iff hmem]
  exact fun hnot => hnot href

end Fired

/-- **When all runs are closed.**  For all tasks, every event and every point at
which the context is cancelled, the calls of the webhooks among them: the
matching tasks are executed once and in order, and every run that was created is
closed as its webhook ended, if and only if the context does not end while a run
is open. -/
theorem fired_runs_are_closed_iff (env : Env) (recordID : Int)
    (event : Trigger) (job : Option Int) (n : Nat) (s : Sys World)
    (hpos : 0 < s.state.taskRuns.next) :
    (fireTasks env recordID event job).wp (.cancelledAt n) s
        (fun _ t => Accounted env recordID event n s t) ↔
      ¬Interrupted env recordID event job n s := by
  constructor
  · intro h hcut
    obtain ⟨run, hrun, hid, hrunning⟩ :=
      @fireTasks_open env recordID event job n s hpos hcut
    obtain ⟨task, _, _, hstatus⟩ := h.closed run hrun hid
    exact closingStatus_ne_running env s.state task (hstatus ▸ hrunning)
  · intro h
    refine Prog.wp_mono (Prog.wp_and
      (fireTasks_executes env event job recordID s)
      (fireTasks_closed hpos h)) ?_
    rintro _ t ⟨⟨-, hran⟩, hclosed⟩
    refine ⟨?_, hclosed⟩
    rw [hran]
    by_cases hn : s.clock < n
    · rw [if_pos hn, if_pos (Oracle.cancelledAt_of_lt hn _)]
    · rw [if_neg hn, if_neg]
      rw [Oracle.cancelledAt_of_le (by omega)]
      exact nofun

/-- A record with one enabled task, which may include the certificate. -/
private def notified (withCertificate : Bool) : Sys World :=
  ⟨{ World.init fun _ _ => none with
    records := Table.empty.insert fun id =>
      ⟨id, "t", 7, "example.org", "www", 60, none, purposeBoth, false, none⟩
    certificates := Table.empty.insert fun id =>
      ⟨id, 1, "www.example.org", "valid", some 0, some 7776000, some "1", none,
        "live/fullchain.pem", "live/privkey.pem"⟩
    tasks := Table.empty.insert fun id =>
      ⟨id, 1, "notify", triggerBoth, "POST", "https://hook.example", none, none,
        withCertificate, true, none, none, none, "pem"⟩ }, 0⟩

/-- The context lasts for the six calls of a task that includes the certificate,
or ends at the first of its run. -/
theorem fired_runs_are_closed_iff_notify :
    (fireTasks Env.sample 1 triggerCert none).wp (.cancelledAt 6)
        (notified true) (fun _ t =>
          Accounted Env.sample 1 triggerCert 6 (notified true) t) ∧
      (fireTasks Env.sample 1 triggerCert none).wp (.cancelledAt 1)
        (notified true) (fun _ t =>
          Accounted Env.sample 1 triggerCert 1 (notified true) t) := by
  constructor
  · refine (fired_runs_are_closed_iff Env.sample 1 triggerCert none 6
      (notified true) (by decide)).mpr ?_
    rintro ⟨_, ⟨_, hshort⟩ | hlater⟩
    · exact absurd hshort (by decide +kernel)
    · exact hlater
  · refine (fired_runs_are_closed_iff Env.sample 1 triggerCert none 1
      (notified true) (by decide)).mpr ?_
    rintro ⟨_, ⟨hlate, _⟩ | hlater⟩
    · exact absurd hlate (by decide +kernel)
    · exact hlater

/-- The context ends at the call `n`: the task is executed, and its run stays
open. -/
def StaysRunning (n : Nat) : Prop :=
  (fireTasks Env.sample 1 triggerIP none).wp (.cancelledAt n) (notified false)
      (fun res t => res = .ok () ∧
        t.state.events = [.runTask 1 triggerIP] ∧
        ∃ run ∈ t.state.taskRuns.rows, run.status = lit "running") ∧
    ¬(fireTasks Env.sample 1 triggerIP none).wp (.cancelledAt n) (notified false)
      (fun _ t => Accounted Env.sample 1 triggerIP n (notified false) t)

private theorem staysRunning : ∀ n ∈ [2, 3], StaysRunning n := by
  intro n hn
  have hrun : ∀ n ∈ [2, 3], (fireTasks Env.sample 1 triggerIP none).wp
      (.cancelledAt n) (notified false) (fun res t => res = .ok () ∧
        t.state.events = [.runTask 1 triggerIP] ∧
        ∃ run ∈ t.state.taskRuns.rows,
          (notified false).state.taskRuns.next ≤ run.id ∧
            run.status = lit "running") := by
    unfold Prog.wp
    decide +kernel
  obtain ⟨hok, hevents, run, hmem, hid, hstatus⟩ := hrun n hn
  refine ⟨⟨hok, hevents, run, hmem, hstatus⟩, fun h => ?_⟩
  obtain ⟨task, _, _, hclosed⟩ := h.closed run hmem hid
  exact closingStatus_ne_running _ _ task (hclosed ▸ hstatus)

/-- The client of the request disconnects while the webhook is called, or when
it has answered: the webhook fails or succeeds, and its run stays open. -/
theorem interrupted_run_stays_running : StaysRunning 2 ∧ StaysRunning 3 :=
  ⟨staysRunning 2 (by simp), staysRunning 3 (by simp)⟩

end Hdns.Ports.TaskRuns

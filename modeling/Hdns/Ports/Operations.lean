import Hdns.Ports.Records
import Hdns.Verified.Machine

/-!
# The operations that can touch A record sets

The operations are the scheduled pass, the two API calls on records, and the
API's address refresh; a run is any sequence of them, each under its own
environment and its own pattern of failures, with arbitrary other changes to
the records, tasks, certificates and zones in between.

Whatever an operation does, it does through a handful of effects.  `Tracks`
says that a relation on worlds allows all of them but the writes of A record
sets; the lemmas below then carry the relation through every function of the
server, and leave the writes to be justified where they happen.

## Main results

* `Calm` — the programs that neither write a record set nor run a task.
* `Tracks` and its `*_keeps` lemmas.
* `operation_logs` — every change of a zone by an operation is in the log.
-/

namespace Hdns.Ports.Operations

open Hdns.Verified
open Hdns.Ports.Schema
open Hdns.Ports.UpdateAddress
open Hdns.Ports.Hetzner
open Hdns.Ports.Tasks
open Hdns.Ports.Service
open Hdns.Ports.Records

/-! ## Programs without writes and task runs -/

/-- A write of a record set or a task run for an address change. -/
def Event.isIP : Event → Bool
  | .writeA _ _ _ _ => true
  | .runTask _ event => event == triggerIP
  | _ => false

/-- Addresses, tasks and zones stay, and the log grows by other events. -/
structure Calm (w w' : World) : Prop where
  addresses : w'.addresses = w.addresses
  tasks : w'.tasks = w.tasks
  zones : w'.zones = w.zones
  events : ∃ es, w'.events = w.events ++ es ∧ ∀ e ∈ es, ¬Event.isIP e

theorem Calm.refl (w : World) : Calm w w := ⟨rfl, rfl, rfl, [], by simp⟩

theorem Calm.trans (w₁ w₂ w₃ : World) (h : Calm w₁ w₂) (h' : Calm w₂ w₃) :
    Calm w₁ w₃ := by
  obtain ⟨es, hes, hcalm⟩ := h.events
  obtain ⟨es', hes', hcalm'⟩ := h'.events
  refine ⟨h'.addresses.trans h.addresses, h'.tasks.trans h.tasks,
    h'.zones.trans h.zones, es ++ es', ?_, ?_⟩
  · rw [hes', hes, List.append_assoc]
  · intro e he
    rcases List.mem_append.mp he with he | he
    · exact hcalm e he
    · exact hcalm' e he

section CalmPrograms

variable (o : Oracle Call)

theorem getRecord_calm (id : Int) : Prog.Keeps o Calm (getRecord id) :=
  .query Calm.refl

theorem updateRecordAddress_calm (addressID id : Int) :
    Prog.Keeps o Calm (updateRecordAddress addressID id) := by
  refine .call Calm.refl fun w => ?_
  split
  · exact Calm.refl w
  · exact ⟨rfl, rfl, rfl, [], by simp⟩

theorem fetchRecord_calm (env : Env) (r : Record) :
    Prog.Keeps o Calm (fetchRecord env r) :=
  fetchRecord_keeps Calm.refl Calm.trans env r

theorem storeRow_calm (env : Env) (input : RecordInput) (token : GoString) :
    Prog.Keeps o Calm (storeRow env input token) :=
  storeRow_keeps Calm.refl Calm.trans
    (fun _ _ => ⟨rfl, rfl, rfl, [], by simp⟩) env input token

theorem storeRecord_calm (env : Env) (input : RecordInput)
    (encrypted : GoString) :
    Prog.Keeps o Calm (storeRecord env input encrypted) := by
  refine .bind Calm.trans ?_ fun token => storeRow_calm o env input token
  refine .ite (fun _ => ?_) fun _ => .pure Calm.refl _
  exact .bind Calm.trans (.mapError (getRecord_calm o _) _) fun _ =>
    .pure Calm.refl _

theorem saveRecord_calm (env : Env) (input : RecordInput)
    (encrypted : GoString) :
    Prog.Keeps o Calm (saveRecord env input encrypted) :=
  .bind Calm.trans (storeRecord_calm o env input encrypted) fun id =>
    .mapError (getRecord_calm o id) _

theorem ensureCertificateRow_calm (record : Record)
    (domains : List GoString) :
    Prog.Keeps o Calm (ensureCertificateRow record domains) :=
  ensureCertificateRow_keeps Calm.refl Calm.trans
    (fun _ _ => ⟨rfl, rfl, rfl, [], by simp⟩) record domains

theorem takeSlot_calm (env : Env) (record : Record) :
    Prog.Keeps o Calm (takeSlot env record) :=
  takeSlot_keeps Calm.refl Calm.trans
    (fun _ _ => ⟨rfl, rfl, rfl, [], by simp⟩) env record

theorem startIssuance_calm (env : Env) (recordID : Int) :
    Prog.Keeps o Calm (startIssuance env recordID) := by
  refine .bind Calm.trans (.mapError (getRecord_calm o recordID) _) ?_
  intro record
  refine .bind Calm.trans (takeSlot_calm o env record) fun _ => ?_
  refine .bind Calm.trans (.attempt (ensureCertificateRow_calm o _ _)) ?_
  intro r
  split
  · exact .bind Calm.trans (.modify fun w => ⟨rfl, rfl, rfl, [], by simp⟩)
      fun _ => .throw Calm.refl _
  · exact .modify fun w => ⟨rfl, rfl, rfl, [.startIssuance record], rfl,
      by simp [Event.isIP]⟩

theorem issueAfterSave_calm (env : Env) (record : Record) :
    Prog.Keeps o Calm (issueAfterSave env record) :=
  .ite (fun _ => .bind Calm.trans
    (.attempt (startIssuance_calm o env _)) fun _ => .pure Calm.refl _)
    fun _ => .pure Calm.refl _

theorem answer_calm (record : Record) :
    Prog.Keeps o Calm (answer record) := by
  unfold answer
  split
  · exact .pure Calm.refl _
  · exact .bind Calm.trans (.mapError (.query Calm.refl) _) fun _ =>
      .pure Calm.refl _

theorem sendReport_calm (report : Report) :
    Prog.Keeps o Calm (sendReport report) :=
  .modify fun w => ⟨rfl, rfl, rfl, [.sendReport report], rfl,
    by simp [Event.isIP]⟩

theorem certificateOne_calm (env : Env) (report : Report) (record : Record) :
    Prog.Keeps o Calm (certificateOne env report record) :=
  .ite (fun _ => .bind Calm.trans (.attempt (.query Calm.refl)) fun _ =>
    .pure Calm.refl _) fun _ => .pure Calm.refl _

theorem finishReport_calm (report : Report) :
    Prog.Keeps o Calm (finishReport report) :=
  .ite (fun _ => sendReport_calm o _) fun _ =>
    .ite (fun _ => sendReport_calm o _) fun _ => .pure Calm.refl _

theorem giveUp_calm (env : Env) (report : Report) (shown : GoError)
    (message : GoString) :
    Prog.Keeps o Calm (giveUp env report shown message) :=
  .bind Calm.trans (sendReport_calm o _) fun _ => .throw Calm.refl _

end CalmPrograms

/-! ## Programs that run tasks -/

/-- Only tasks and their runs change, and the log grows by runs of tasks. -/
structure RunsTasks (w w' : World) : Prop where
  frame : w' = { w with
    tasks := w'.tasks, taskRuns := w'.taskRuns, events := w'.events }
  events : ∃ es, w'.events = w.events ++ es ∧
    ∀ e ∈ es, ∃ id event, e = .runTask id event

theorem RunsTasks.refl (w : World) : RunsTasks w w := ⟨rfl, [], by simp⟩

theorem RunsTasks.trans (w₁ w₂ w₃ : World) (h : RunsTasks w₁ w₂)
    (h' : RunsTasks w₂ w₃) : RunsTasks w₁ w₃ := by
  obtain ⟨es, hes, hruns⟩ := h.events
  obtain ⟨es', hes', hruns'⟩ := h'.events
  refine ⟨by rw [h'.frame, h.frame], es ++ es', ?_, ?_⟩
  · rw [hes', hes, List.append_assoc]
  · intro e he
    exact (List.mem_append.mp he).elim (hruns e) (hruns' e)

section RunsTasks

variable (o : Oracle Call)

theorem fireTasks_runs (env : Env) (recordID : Int) (event : Trigger)
    (job : Option Int) :
    Prog.Keeps o RunsTasks (fireTasks env recordID event job) := by
  refine fireTasks_keeps ⟨RunsTasks.refl, fun _ _ => RunsTasks.trans, ?_, ?_,
    ?_⟩ env recordID event job
  · exact fun _ _ => ⟨rfl, [], by simp⟩
  · exact fun _ _ _ => ⟨rfl, [_], rfl, by simp⟩
  · exact fun _ _ _ _ _ => ⟨rfl, [], by simp [storeResult]⟩

end RunsTasks

/-! ## Programs that leave the records alone -/

theorem getRecord_spec (o : Oracle Call) (s : Sys World) (id : Int) :
    (getRecord id).wp o s fun r t => t.state = s.state ∧
      ∀ record, r = .ok record → s.state.records.find? id = some record := by
  refine Prog.wp_query_of ⟨rfl, ?_⟩ ⟨rfl, nofun⟩
  intro record h
  cases hfind : s.state.records.find? id with
  | none => simp [hfind] at h
  | some r => simpa [hfind] using h

theorem getRecord_ok (o : Oracle Call) (s : Sys World) (id : Int) :
    (getRecord id).wpOk o s fun record t =>
      t.state = s.state ∧ s.state.records.find? id = some record :=
  Prog.wpOk_of_wp (Prog.wp_mono (getRecord_spec o s id) fun _ _ h record hr =>
    ⟨h.1, h.2 record hr⟩)

/-- The records table stays as it is. -/
def RecordsKept (w w' : World) : Prop := w'.records = w.records

theorem RecordsKept.refl (w : World) : RecordsKept w w := rfl

theorem RecordsKept.trans (w₁ w₂ w₃ : World) (h : RecordsKept w₁ w₂)
    (h' : RecordsKept w₂ w₃) : RecordsKept w₁ w₃ := Eq.trans h' h

section RecordsKept

variable (o : Oracle Call)

theorem ensureCertificateRow_records (record : Record)
    (domains : List GoString) :
    Prog.Keeps o RecordsKept (ensureCertificateRow record domains) :=
  ensureCertificateRow_keeps RecordsKept.refl RecordsKept.trans
    (fun _ _ => rfl) record domains

theorem takeSlot_records (env : Env) (record : Record) :
    Prog.Keeps o RecordsKept (takeSlot env record) :=
  takeSlot_keeps RecordsKept.refl RecordsKept.trans (fun _ _ => rfl) env record

theorem startIssuance_records (env : Env) (recordID : Int) :
    Prog.Keeps o RecordsKept (startIssuance env recordID) := by
  refine .bind RecordsKept.trans (.mapError (.query RecordsKept.refl) _)
    fun record => ?_
  refine .bind RecordsKept.trans (takeSlot_records o env record) fun _ => ?_
  refine .bind RecordsKept.trans
    (.attempt (ensureCertificateRow_records o _ _)) fun r => ?_
  split
  · exact .bind RecordsKept.trans (.modify fun _ => rfl) fun _ =>
      .throw RecordsKept.refl _
  · exact .modify fun _ => rfl

theorem issueAfterSave_records (env : Env) (record : Record) :
    Prog.Keeps o RecordsKept (issueAfterSave env record) :=
  .ite (fun _ => .bind RecordsKept.trans
    (.attempt (startIssuance_records o env _)) fun _ =>
      .pure RecordsKept.refl _) fun _ => .pure RecordsKept.refl _

theorem fireTasks_records (env : Env) (recordID : Int) (event : Trigger)
    (job : Option Int) :
    Prog.Keeps o RecordsKept (fireTasks env recordID event job) :=
  (fireTasks_runs o env recordID event job).mono fun w w' h => by
    rw [RecordsKept, h.frame]

theorem upsertResourceRecordSet_records (r : Record) (addr : Address)
    (ip : GoString) :
    Prog.Keeps o RecordsKept (upsertResourceRecordSet r addr ip) :=
  upsertResourceRecordSet_keeps RecordsKept.refl RecordsKept.trans
    fun _ _ _ => rfl

theorem answer_records (record : Record) :
    Prog.Keeps o RecordsKept (answer record) := by
  unfold answer
  split
  · exact .pure RecordsKept.refl _
  · exact .bind RecordsKept.trans (.mapError (.query RecordsKept.refl) _)
      fun _ => .pure RecordsKept.refl _

end RecordsKept

/-! ## Relations that allow everything but writes -/

/-- A preorder on worlds that allows calm programs, the address update and the
effects of running tasks. -/
structure Tracks (R : World → World → Prop) : Prop where
  refl : ∀ w, R w w
  trans : ∀ w₁ w₂ w₃, R w₁ w₂ → R w₂ w₃ → R w₁ w₃
  calm : ∀ w w', Calm w w' → R w w'
  saved : ∀ ipv4 ipv6 w r w', Saved ipv4 ipv6 w r w' → R w w'
  ran : ∀ w id event, R w (w.log (.runTask id event))
  result : ∀ w id lastRun lastStatus lastError,
    R w (storeResult id lastRun lastStatus lastError w)

section Tracks

variable {R : World → World → Prop} (hR : Tracks R) {o : Oracle Call}
include hR

theorem fireTasks_tracks (env : Env) (recordID : Int) (event : Trigger)
    (job : Option Int) :
    Prog.Keeps o R (fireTasks env recordID event job) := by
  refine fireTasks_keeps ⟨hR.refl, fun _ _ => hR.trans, ?_, hR.ran,
    hR.result⟩ env recordID event job
  exact fun w _ => hR.calm w _ ⟨rfl, rfl, rfl, [], by simp⟩

/-- A relation that also allows the writes of one record and address is kept
by `UpdateRecord`. -/
theorem updateRecord_tracks (env : Env) {r : Record} {addr : Address}
    (hwrite : ∀ w new, new.values = [addr.ipv4.string] →
      R w (write r addr new w)) :
    Prog.Keeps o R (updateRecord env r addr) := by
  refine updateRecord_keeps hR.refl hR.trans env hwrite ?_
  exact (updateRecordAddress_calm o _ _).mono hR.calm

/-- The same for the status of one record. -/
theorem refreshRecordStatus_tracks (env : Env) {r : Record} {addr : Address}
    (hwrite : ∀ ip, addr.ipv4 = some ip → ∀ w new, new.values = [ip] →
      R w (write r addr new w)) :
    Prog.Keeps o R (refreshRecordStatus env r addr) := by
  refine refreshRecordStatus_keeps hR.refl hR.trans env fun ip hip => ?_
  refine updateRecord_tracks hR env fun w new hnew => ?_
  exact hwrite ip hip w new (by simpa [hip, NullString.string] using hnew)

theorem refreshOne_tracks (env : Env) {addr : Address}
    (hwrite : ∀ r ip, recordDoesDDNS r.purpose = true → addr.ipv4 = some ip →
      ∀ w new, new.values = [ip] → R w (write r addr new w))
    (report : Report) (r : Record) :
    Prog.Keeps o R (refreshOne env addr report r) := by
  refine refreshOne_keeps hR.refl hR.trans env (fun hddns => ?_)
    (fireTasks_tracks hR env _ _ _) report
  exact refreshRecordStatus_tracks hR env fun ip => hwrite r ip hddns

theorem refreshAll_tracks (env : Env) {addr : Address}
    (hwrite : ∀ r ip, recordDoesDDNS r.purpose = true → addr.ipv4 = some ip →
      ∀ w new, new.values = [ip] → R w (write r addr new w)) :
    Prog.Keeps o R (refreshAll env addr) := by
  have hcert : ∀ report r, Prog.Keeps o R (certificateOne env report r) :=
    fun report r => (certificateOne_calm o env report r).mono hR.calm
  refine .bind hR.trans (.attempt (.mapError (.query hR.refl) _)) fun r => ?_
  cases r with
  | error err => exact (giveUp_calm o env _ _ _).mono hR.calm
  | ok records =>
      refine .bind hR.trans (.foldlM hR.refl hR.trans
        (refreshOne_tracks hR env hwrite) _ _) fun report => ?_
      exact .bind hR.trans (.foldlM hR.refl hR.trans hcert _ _) fun report =>
        (finishReport_calm o report).mono hR.calm

theorem applyCurrent_tracks (env : Env) {r : Record} {addr : Address}
    {ip : GoString} (hip : addr.ipv4 = some ip)
    (hwrite : ∀ w new, new.values = [ip] → R w (write r addr new w)) :
    Prog.Keeps o R (applyCurrent env r addr ip) := by
  refine applyCurrent_keeps hR.refl hR.trans env ?_
    (fun _ => fireTasks_tracks hR env _ _ _) ip
  exact updateRecord_tracks hR env fun w new hnew =>
    hwrite w new (by simpa [hip, NullString.string] using hnew)

/-! ### The operations

The address an operation applies is read from the table, so that it holds no
empty text is a matter of the state it starts from. -/

variable {s : Sys World}

/-- A relation that also allows the writes of valid addresses for DDNS records
is kept by `Refresh`. -/
theorem refresh_tracks (env : Env)
    (htexts : TextsNonempty s.state.addresses)
    (hwrite : ∀ r addr ip, recordDoesDDNS r.purpose = true →
      addr.ipv4 = some ip → ip ≠ [] → ∀ w new, new.values = [ip] →
        R w (write r addr new w)) :
    (refresh env).wp o s fun _ t => R s.state t.state := by
  unfold refresh
  rw [Prog.wp_bind, Prog.wp_attempt]
  refine Prog.wp_mono (updateAddress_spec env o s) ?_
  rintro (err | addr) t hsaved
  · exact Prog.wp_mono (((giveUp_calm o env _ _ _).mono hR.calm) t)
      fun _ _ => hR.trans _ _ _ (hR.saved _ _ _ _ _ hsaved)
  · have hne : ∀ ip, addr.ipv4 = some ip → ip ≠ [] := by
      rintro ip hip rfl
      exact (hsaved.texts htexts addr (hsaved.stored addr rfl).1).1 hip
    have hall : Prog.Keeps o R (refreshAll env addr) :=
      refreshAll_tracks hR env fun r ip hddns hip =>
        hwrite r addr ip hddns hip (hne ip hip)
    exact Prog.wp_mono (hall t)
      fun _ _ => hR.trans _ _ _ (hR.saved _ _ _ _ _ hsaved)

/-- The same for `dns.RefreshRecord`. -/
theorem refreshRecord_tracks (env : Env) (r : Record)
    (htexts : TextsNonempty s.state.addresses)
    (hwrite : ∀ addr ip, recordDoesDDNS r.purpose = true →
      addr.ipv4 = some ip → ip ≠ [] → ∀ w new, new.values = [ip] →
        R w (write r addr new w)) :
    (refreshRecord env r).wp o s fun _ t => R s.state t.state := by
  unfold refreshRecord
  split
  · next hddns =>
    rw [Prog.wp_bind, Prog.wp_mapError]
    refine Prog.wp_mono (getCurrentAddress_spec o s) ?_
    rintro (err | addr) t ⟨ht, hread⟩
    · exact ht ▸ hR.refl _
    · have hmem := currentAddress_mem (hread addr rfl)
      rw [← ht]
      show Prog.wp _ o t _
      cases hip : addr.ipv4 with
      | none => exact hR.refl _
      | some ip =>
          have hne : ip ≠ [] := by
            rintro rfl
            exact (htexts addr hmem).1 hip
          exact applyCurrent_tracks hR env hip (hwrite addr ip hddns hip hne) t
  · exact hR.refl _

/-- The same for `UpsertRecord`. -/
theorem upsertRecord_tracks (env : Env) (input : RecordInput)
    (htexts : TextsNonempty s.state.addresses)
    (hwrite : ∀ r addr ip, recordDoesDDNS r.purpose = true →
      addr.ipv4 = some ip → ip ≠ [] → ∀ w new, new.values = [ip] →
        R w (write r addr new w)) :
    (upsertRecord env input).wp o s fun _ t => R s.state t.state := by
  unfold upsertRecord
  rw [Prog.wp_bind, Prog.wp_ofExcept]
  cases checkInput env input with
  | error err => exact hR.refl _
  | ok encrypted =>
      show Prog.wp _ o s _
      rw [Prog.wp_bind, Prog.wp_mapError]
      refine Prog.wp_mono (saveRecord_calm o env input encrypted s) ?_
      rintro (err | record) t hcalm
      · exact hR.calm _ _ hcalm
      have htexts' : TextsNonempty t.state.addresses := hcalm.addresses ▸ htexts
      show Prog.wp _ o t _
      unfold afterSave
      rw [Prog.wp_bind, Prog.wp_mapError]
      refine Prog.wp_mono (refreshRecord_tracks hR env record htexts'
        fun addr ip => hwrite record addr ip) ?_
      rintro (err | record) u hrefresh
      · exact hR.trans _ _ _ (hR.calm _ _ hcalm) hrefresh
      have hrest := Prog.Keeps.bind hR.trans
        ((issueAfterSave_calm o env record).mono hR.calm) fun _ =>
          (answer_calm o record).mono hR.calm
      exact Prog.wp_mono (hrest u) fun _ _ h => hR.trans _ _ _
        (hR.trans _ _ _ (hR.calm _ _ hcalm) hrefresh) h

/-- `Server.RefreshRecord` writes whatever address was resolved, for whatever
record has the id. -/
theorem serverRefreshRecord_tracks (env : Env) (id : Int)
    (hwrite : ∀ r addr, s.state.records.find? id = some r →
      addr.ipv4.string = env.consensus4.1 →
        ∀ w new, new.values = [addr.ipv4.string] → R w (write r addr new w)) :
    (Server.refreshRecord env id).wp o s fun _ t => R s.state t.state := by
  have hstored : (refreshStored env id).wp o s fun _ t =>
      R s.state t.state := by
    unfold refreshStored
    rw [Prog.wp_bind, Prog.wp_mapError]
    refine Prog.wp_mono (getRecord_spec o s id) ?_
    rintro (err | record) t ⟨ht, hfound⟩
    · exact ht ▸ hR.refl _
    rw [← ht]
    show Prog.wp _ o t _
    rw [Prog.wp_bind, Prog.wp_mapError]
    refine Prog.wp_mono (updateAddress_spec env o t) ?_
    rintro (err | addr) u hsaved
    · exact hR.saved _ _ _ _ _ hsaved
    show Prog.wp _ o u _
    have hupdate : Prog.Keeps o R (updateRecord env record addr) :=
      updateRecord_tracks hR env
        (hwrite record addr (hfound record rfl) (hsaved.stored addr rfl).2.1)
    have hrest := Prog.Keeps.bind hR.trans (Prog.Keeps.mapError hupdate
      (.because "failed to update DNS record")) fun record =>
        Prog.Keeps.pure hR.refl (record, addr)
    exact Prog.wp_mono (hrest u)
      fun _ _ => hR.trans _ _ _ (hR.saved _ _ _ _ _ hsaved)
  unfold Server.refreshRecord
  rw [Prog.wp_bind, Prog.wp_mapError]
  refine Prog.wp_mono hstored ?_
  rintro (err | ⟨record, addr⟩) t h
  · exact h
  · exact h

theorem serverRefreshAddress_tracks (env : Env) :
    (Server.refreshAddress env).wp o s fun _ t => R s.state t.state := by
  unfold Server.refreshAddress
  rw [Prog.wp_bind, Prog.wp_mapError]
  refine Prog.wp_mono (updateAddress_spec env o s) ?_
  rintro (err | addr) t h
  · exact hR.saved _ _ _ _ _ h
  · exact hR.saved _ _ _ _ _ h

end Tracks

/-! ## Runs of operations -/

/-- What may change between two operations: everything but the addresses,
which only `UpdateAddress` writes, and the log. -/
structure Elsewhere where
  records : Table Record
  certificates : Table Certificate
  tasks : Table Task
  taskRuns : Table TaskRun
  zones : Zones
  pending : Int → Bool

/-- An operation with its environment and its pattern of failures. -/
inductive Op where
  | refresh (env : Env) (o : Oracle Call)
  | upsertRecord (env : Env) (o : Oracle Call) (input : RecordInput)
  | serverRefreshRecord (env : Env) (o : Oracle Call) (id : Int)
  | serverRefreshAddress (env : Env) (o : Oracle Call)
  | elsewhere (c : Elsewhere)

def Op.apply : Op → World → World
  | .refresh env o, w => (Service.refresh env o ⟨w, 0⟩).2.state
  | .upsertRecord env o input, w =>
      (Records.upsertRecord env input o ⟨w, 0⟩).2.state
  | .serverRefreshRecord env o id, w =>
      (Server.refreshRecord env id o ⟨w, 0⟩).2.state
  | .serverRefreshAddress env o, w =>
      (Server.refreshAddress env o ⟨w, 0⟩).2.state
  | .elsewhere c, w =>
      { w with
        records := c.records
        certificates := c.certificates
        tasks := c.tasks
        taskRuns := c.taskRuns
        zones := c.zones
        pending := c.pending }

/-- The machine whose runs are sequences of operations. -/
def operations : Machine World Op where
  step w op := some (op.apply w)

/-- The one rule for operations: what the writes of DDNS records, the writes
of `Server.RefreshRecord` and the changes from elsewhere may do, the operation
may do. -/
theorem Op.apply_tracks {R : World → World → Prop} (hR : Tracks R) (op : Op)
    {w : World} (htexts : TextsNonempty w.addresses)
    (hwrite : ∀ r addr ip, recordDoesDDNS r.purpose = true →
      addr.ipv4 = some ip → ip ≠ [] → ∀ w new, new.values = [ip] →
        R w (write r addr new w))
    (hserver : ∀ env o id, op = .serverRefreshRecord env o id →
      ∀ r addr, w.records.find? id = some r →
        addr.ipv4.string = env.consensus4.1 →
          ∀ w new, new.values = [addr.ipv4.string] → R w (write r addr new w))
    (helse : ∀ c, op = .elsewhere c → R w (op.apply w)) :
    R w (op.apply w) := by
  cases op with
  | refresh env o => exact refresh_tracks hR (s := ⟨w, 0⟩) env htexts hwrite
  | upsertRecord env o input =>
      exact upsertRecord_tracks hR (s := ⟨w, 0⟩) env input htexts hwrite
  | serverRefreshRecord env o id =>
      exact serverRefreshRecord_tracks hR (s := ⟨w, 0⟩) env id
        (hserver env o id rfl)
  | serverRefreshAddress env o =>
      exact serverRefreshAddress_tracks hR (s := ⟨w, 0⟩) (o := o) env
  | elsewhere c => exact helse c rfl

/-- Empty texts stay out of the address table in every run. -/
theorem run_textsNonempty (ops : List Op) (w w' : World)
    (h : TextsNonempty w.addresses) (hrun : operations.run w ops = some w') :
    TextsNonempty w'.addresses := by
  have hR : Tracks fun w w' : World =>
      TextsNonempty w.addresses → TextsNonempty w'.addresses := {
    refl := fun _ => id
    trans := fun _ _ _ h h' => h' ∘ h
    calm := fun _ _ h => by rw [h.addresses]; exact id
    saved := fun _ _ _ _ _ h => h.texts
    ran := fun _ _ _ => id
    result := fun _ _ _ _ _ => id }
  have hstep : ∀ w op w', TextsNonempty w.addresses →
      operations.step w op = some w' → TextsNonempty w'.addresses := by
    intro w op w' h hstep
    obtain rfl := Option.some.inj hstep
    exact Op.apply_tracks hR op h (fun _ _ _ _ _ _ _ _ _ => id)
      (fun _ _ _ _ _ _ _ _ _ _ _ => id) (fun _ hop => by subst hop; exact id) h
  exact Machine.invariant hstep ops w w' h hrun

/-! ## The log and the zones -/

/-- The log leads from one state of the zones to another: each write finds
what it says was there before, and nothing else changes a zone. -/
def Replays : Zones → List Event → Zones → Prop
  | z, [], z' => z' = z
  | z, .writeA r _ before after :: es, z' =>
      before = z r.zoneID r.name ∧
        Replays (z.set r.zoneID r.name after) es z'
  | z, _ :: es, z' => Replays z es z'

theorem replays_append {es' : List Event} {z' z'' : Zones}
    (h' : Replays z' es' z'') :
    ∀ (es : List Event) (z : Zones), Replays z es z' →
      Replays z (es ++ es') z'' := by
  intro es
  induction es with
  | nil => intro z h; obtain rfl : z' = z := h; exact h'
  | cons e es ih =>
      intro z h
      cases e with
      | writeA r addr before after => exact ⟨h.1, ih _ h.2⟩
      | runTask id event => exact ih z h
      | startIssuance record => exact ih z h
      | sendReport report => exact ih z h

theorem replays_of_calm {z : Zones} :
    ∀ es : List Event, (∀ e ∈ es, ¬Event.isIP e) → Replays z es z := by
  intro es
  induction es with
  | nil => exact fun _ => rfl
  | cons e es ih =>
      intro h
      have hrest := ih fun e he => h e (List.mem_cons_of_mem _ he)
      cases e with
      | writeA r addr before after =>
          exact absurd rfl (h _ List.mem_cons_self)
      | runTask id event => exact hrest
      | startIssuance record => exact hrest
      | sendReport report => exact hrest

/-- The log only grows, and what is appended accounts for the zones. -/
def Logs (w w' : World) : Prop :=
  ∃ es, w'.events = w.events ++ es ∧ Replays w.zones es w'.zones

theorem logs_tracks : Tracks Logs where
  refl := fun w => ⟨[], by simp, rfl⟩
  trans := by
    rintro w₁ w₂ w₃ ⟨es, hes, hz⟩ ⟨es', hes', hz'⟩
    exact ⟨es ++ es', by rw [hes', hes, List.append_assoc],
      replays_append hz' es _ hz⟩
  calm := by
    intro w w' h
    obtain ⟨es, hes, hcalm⟩ := h.events
    exact ⟨es, hes, h.zones ▸ replays_of_calm es hcalm⟩
  saved := by
    intro ipv4 ipv6 w r w' h
    rw [h.frame]
    exact ⟨[], by simp, rfl⟩
  ran := fun w id event => ⟨[.runTask id event], rfl, rfl⟩
  result := fun w _ _ _ _ => ⟨[], by simp [storeResult], rfl⟩

/-- **Every change of a zone is in the log.**  Whatever fails, an operation of
the server changes the A record sets by the writes it logs and by nothing
else. -/
theorem operation_logs (op : Op) {w : World}
    (htexts : TextsNonempty w.addresses) (hop : ∀ c, op ≠ .elsewhere c) :
    Logs w (op.apply w) := by
  have hwrite : ∀ r addr new w, Logs w (write r addr new w) :=
    fun r addr new w => ⟨[_], rfl, rfl, rfl⟩
  exact Op.apply_tracks logs_tracks op htexts
    (fun r addr _ _ _ _ w new _ => hwrite r addr new w)
    (fun _ _ _ _ r addr _ _ w new _ => hwrite r addr new w)
    (fun c hc => absurd hc (hop c))

end Hdns.Ports.Operations

import Hdns.Ports.Operations

/-!
# Which tasks an address change fires

A write that changes the values of a record's A record set is owed one run of
each enabled task of the record whose trigger is the address.  The events are
fired by the callers of `UpdateRecord`, after it has returned without error, so
they are lost when the write took effect and something after it failed; and the
API's `Server.RefreshRecord` fires none.

## Main results

* `Accounted` — every write in a piece of the log is followed by exactly the
  task runs it is owed, and no other run for an address change is in it.
* `updateRecord_appends`, `fireTasks_appends` — the two halves.
* `undisturbed_operations_are_accounted` — the runs in which nothing comes
  between the halves are accounted for.
-/

namespace Hdns.Ports.TaskFiring

open Hdns.Verified
open Hdns.Verified.GoString
open Hdns.Ports.Schema
open Hdns.Ports.UpdateAddress
open Hdns.Ports.Hetzner
open Hdns.Ports.Tasks
open Hdns.Ports.Service
open Hdns.Ports.Records
open Hdns.Ports.Operations

/-! ## What is owed -/

/-- The task is enabled, belongs to the record and fires on address changes. -/
def ipTask (recordID : Int) (t : Task) : Bool :=
  (t.recordID == recordID && t.enabled) && fires t triggerIP

/-- The runs owed for a change of the record set of a record. -/
def owedBy (w : World) (recordID : Int) : List Event :=
  (w.tasks.rows.filter (ipTask recordID)).map fun t => .runTask t.id triggerIP

/-- The write created the record set or replaced different values. -/
def changes (before : Option RRSet) (after : RRSet) : Bool :=
  before.map (·.values) != some after.values

/-- A write with the runs owed for it; nothing for other events. -/
def owedFor (w : World) : Event → List Event
  | .writeA r addr before after =>
      .writeA r addr before after ::
        if changes before after then owedBy w r.id else []
  | _ => []

/-- The writes and address-change runs among the events are the writes, each
followed by the runs owed for it. -/
def Accounted (w : World) (es : List Event) : Prop :=
  es.filter Event.isIP = es.flatMap (owedFor w)

instance (w : World) (es : List Event) : Decidable (Accounted w es) :=
  inferInstanceAs (Decidable (_ = _))

/-- The log grew by events that are accounted for. -/
def FiresExactly (w w' : World) : Prop :=
  ∃ es, w'.events = w.events ++ es ∧ Accounted w es

theorem isIP_of_mem_owedBy {w : World} {id : Int} {e : Event}
    (h : e ∈ owedBy w id) : Event.isIP e = true ∧ owedFor w e = [] := by
  obtain ⟨t, _, rfl⟩ := List.mem_map.mp h
  exact ⟨rfl, rfl⟩

/-- A write followed by what it is owed is accounted for. -/
theorem accounted_write {w : World} (r : Record) (addr : Address)
    (before : Option RRSet) (after : RRSet) {es : List Event}
    (hes : es = if changes before after then owedBy w r.id else []) :
    Accounted w (.writeA r addr before after :: es) := by
  have howed : ∀ e ∈ es, Event.isIP e = true ∧ owedFor w e = [] := by
    intro e he
    rw [hes] at he
    split at he
    · exact isIP_of_mem_owedBy he
    · exact absurd he List.not_mem_nil
  have hfilter : es.filter Event.isIP = es :=
    List.filter_eq_self.mpr fun e he => (howed e he).1
  have hflat : es.flatMap (owedFor w) = [] :=
    List.flatMap_eq_nil_iff.mpr fun e he => (howed e he).2
  simp only [Accounted, List.filter_cons, Event.isIP, if_true, hfilter,
    List.flatMap_cons, hflat, owedFor, List.append_nil, ← hes]

theorem accounted_append {w : World} {es es' : List Event}
    (h : Accounted w es) (h' : Accounted w es') : Accounted w (es ++ es') := by
  simp only [Accounted, List.filter_append, List.flatMap_append] at *
  rw [h, h']

theorem accounted_of_calm {w : World} {es : List Event}
    (h : ∀ e ∈ es, ¬Event.isIP e) : Accounted w es := by
  have hflat : es.flatMap (owedFor w) = [] := by
    refine List.flatMap_eq_nil_iff.mpr fun e he => ?_
    cases e with
    | writeA r addr before after => exact absurd rfl (h _ he)
    | _ => rfl
  rw [Accounted, hflat]
  exact List.filter_eq_nil_iff.mpr h

/-- What is accounted for depends on the tasks through what they are owed. -/
theorem accounted_congr {w w' : World} {es : List Event}
    (h : ∀ id, owedBy w' id = owedBy w id) (hes : Accounted w' es) :
    Accounted w es := by
  have howed : owedFor w' = owedFor w := by
    funext e
    cases e <;> simp [owedFor, h]
  rw [Accounted, ← howed]
  exact hes

/-! ## Steps that append known events -/

/-- Exactly these events were appended; addresses and debts stay. -/
structure Appends (es : List Event) (w w' : World) : Prop where
  addresses : w'.addresses = w.addresses
  owed : ∀ id, owedBy w' id = owedBy w id
  events : w'.events = w.events ++ es

theorem Appends.nil (w : World) : Appends [] w w := ⟨rfl, fun _ => rfl, by simp⟩

theorem Appends.trans {es es' : List Event} {w₁ w₂ w₃ : World}
    (h : Appends es w₁ w₂) (h' : Appends es' w₂ w₃) :
    Appends (es ++ es') w₁ w₃ where
  addresses := h'.addresses.trans h.addresses
  owed := fun id => (h'.owed id).trans (h.owed id)
  events := by rw [h'.events, h.events, List.append_assoc]

/-- Storing a result changes no column that matters to what is owed. -/
theorem owedBy_storeResult (w : World) (id lastRun : Int)
    (lastStatus lastError : NullString) (recordID : Int) :
    owedBy (storeResult id lastRun lastStatus lastError w) recordID =
      owedBy w recordID := by
  have hkeep : ∀ t : Task, ipTask recordID
      (if t.id == id then
        { t with
          lastRun := some lastRun
          lastStatus := lastStatus
          lastError := lastError }
      else t) = ipTask recordID t := by
    intro t; split <;> rfl
  have hid : ∀ t : Task, (if t.id == id then
      { t with
        lastRun := some lastRun
        lastStatus := lastStatus
        lastError := lastError }
      else t).id = t.id := by
    intro t; split <;> rfl
  simp only [owedBy, storeResult, Table.rows_updateWhere, List.filter_map,
    List.map_map, Function.comp_def, hkeep, hid]

theorem follows_appends : Follows Appends where
  nil := Appends.nil
  append := fun _ _ _ _ _ => Appends.trans
  runs := fun _ _ => ⟨rfl, fun _ => rfl, by simp⟩
  ran := fun _ _ _ => ⟨rfl, fun _ => rfl, rfl⟩
  result := fun w _ _ _ _ =>
    ⟨rfl, owedBy_storeResult w _ _ _ _, by simp [storeResult]⟩

/-- `FireTasks` runs exactly what is owed, once the statement that lists the
tasks gets through. -/
theorem fireTasks_appends (env : Env) (recordID : Int) {o : Oracle Call}
    {s : Sys World}
    (ho : o s.clock .listEnabledTasksByRecord = .none) :
    (fireTasks env recordID triggerIP none).wp o s fun r t =>
      r = .ok () ∧ Appends (owedBy s.state recordID) s.state t.state := by
  refine Prog.wp_mono (fireTasks_follows follows_appends env triggerIP none
    recordID s) ?_
  rintro r t ⟨hr, ht⟩
  rw [if_pos ho] at ht
  have howed : ((enabledTasks s.state recordID).filter
      (fires · triggerIP)).map (fun t => Event.runTask t.id triggerIP) =
        owedBy s.state recordID := by
    simp only [enabledTasks, owedBy, List.filter_filter]
    congr 1
    refine List.filter_congr fun t _ => ?_
    rw [ipTask, Bool.and_comm]
  exact ⟨hr, howed ▸ ht⟩

/-! ## What `UpdateRecord` appends -/

/-- Nothing comes between a write and the runs it is owed: the statements that
follow a write get through, and no reply to a write is lost. -/
def Reliable (o : Oracle Call) : Prop :=
  ∀ n, o n .updateRecordAddress = .none ∧
    o n .listEnabledTasksByRecord = .none ∧
    o n .createRRSet ≠ .lostReply ∧ o n .setRRSetRecords ≠ .lostReply

/-- The address is a row of the table. -/
def Known (addr : Address) (w : World) : Prop :=
  (w.addresses.find? addr.id).isSome = true

/-- A call of `UpdateRecord` that wrote nothing failed; one that wrote
succeeded, unless something came between. -/
def UpdateOutcome (o : Oracle Call) (r : Record) (addr : Address)
    (w : World) {α : Type} (res : Except GoError α) (w' : World) : Prop :=
  (Appends [] w w' ∧ ∃ err, res = .error err) ∨
    ∃ after, after.values = [addr.ipv4.string] ∧
      Appends [.writeA r addr (rrset w r) after] w w' ∧
        (Reliable o → Known addr w → ∃ a, res = .ok a)

theorem findResourceRecordSet_spec (r : Record) (o : Oracle Call)
    (s : Sys World) :
    (findResourceRecordSet r).wp o s fun res t => t.state = s.state ∧
      ∀ found, res = .ok found → found = rrset s.state r := by
  unfold findResourceRecordSet
  rw [Prog.wp_mapError]
  refine Prog.wp_query_of ⟨rfl, ?_⟩ ⟨rfl, nofun⟩
  intro found h
  exact (Except.ok.inj h).symm

/-- A write of the record set, or an error. -/
private theorem write_outcome {o : Oracle Call} {r : Record} {addr : Address}
    {s : Sys World} {c : Call} {f : GoError → GoError}
    {act : World → Except GoError Unit × World}
    (hlost : Reliable o → o s.clock c ≠ .lostReply) (new : RRSet)
    (hnew : new.values = [addr.ipv4.string])
    (hact : act s.state = (.ok (), write r addr new s.state)) :
    ((Prog.call c .api act).mapError f).wp o s fun res t =>
      UpdateOutcome o r addr s.state res t.state := by
  have hwrite : Appends [.writeA r addr (rrset s.state r) new] s.state
      (write r addr new s.state) := ⟨rfl, fun _ => rfl, rfl⟩
  rw [Prog.wp_mapError]
  refine Prog.wp_call_of ?_ ?_ ?_
  · rw [hact]
    exact .inr ⟨new, hnew, hwrite, fun _ _ => ⟨(), rfl⟩⟩
  · exact fun _ => .inl ⟨.nil _, _, rfl⟩
  · intro hl
    rw [hact]
    exact .inr ⟨new, hnew, hwrite, fun hrel => absurd hl (hlost hrel)⟩

theorem upsert_outcome (r : Record) (addr : Address) (o : Oracle Call)
    (s : Sys World) :
    (upsertResourceRecordSet r addr addr.ipv4.string).wp o s fun res t =>
      UpdateOutcome o r addr s.state res t.state := by
  unfold upsertResourceRecordSet
  rw [Prog.wp_bind, Prog.wp_mapError]
  refine Prog.wp_mono (findResourceRecordSet_spec r o s) ?_
  rintro (err | found) t ⟨ht, hfound⟩
  · exact .inl ⟨ht ▸ .nil _, _, rfl⟩
  have hrrset := hfound found rfl
  rw [← ht] at hrrset ⊢
  show Prog.wp _ o t _
  cases found with
  | none =>
      refine write_outcome (fun hrel => (hrel _).2.2.1)
        ⟨r.ttl.toInt, [addr.ipv4.string]⟩ rfl ?_
      simp [createRRSet, ← hrrset]
  | some old =>
      refine write_outcome (fun hrel => (hrel _).2.2.2)
        ⟨old.ttl, [addr.ipv4.string]⟩ rfl ?_
      simp [setRRSetRecords, ← hrrset]

theorem updateRecord_appends (env : Env) (r : Record) (addr : Address)
    (o : Oracle Call) (s : Sys World) :
    (updateRecord env r addr).wp o s fun res t =>
      UpdateOutcome o r addr s.state res t.state ∧
        ∀ r', res = .ok r' → r'.id = r.id := by
  unfold updateRecord
  rw [Prog.wp_bind, Prog.wp_ofExcept]
  cases clientForRecord env r with
  | error err => exact ⟨.inl ⟨.nil _, _, rfl⟩, by rintro _ ⟨⟩⟩
  | ok token =>
      show Prog.wp _ o s _
      rw [Prog.wp_bind, Prog.wp_mapError]
      refine Prog.wp_mono (upsert_outcome r addr o s) ?_
      rintro (err | _) t hout
      · rcases hout with ⟨h, _⟩ | ⟨after, hafter, h, hok⟩
        · exact ⟨.inl ⟨h, _, rfl⟩, by rintro _ ⟨⟩⟩
        · refine ⟨.inr ⟨after, hafter, h, fun hrel hknown => ?_⟩,
            by rintro _ ⟨⟩⟩
          obtain ⟨_, hcontra⟩ := hok hrel hknown
          cases hcontra
      rcases hout with ⟨_, _, hcontra⟩ | ⟨after, hafter, h, _⟩
      · cases hcontra
      -- the write took effect; what is left is to store the address
      show Prog.wp _ o t _
      rw [Prog.wp_bind, Prog.wp_mapError]
      have hstore : (updateRecordAddress addr.id r.id).wp o t fun res u =>
          Appends [] t.state u.state ∧
            (Reliable o → Known addr s.state → res = .ok ()) := by
        refine Prog.wp_call_of ?_ ?_ ?_
        · split
          · next hfk =>
            refine ⟨.nil _, fun _ hknown => ?_⟩
            rw [Known, ← h.addresses, Option.isSome_iff_ne_none] at hknown
            exact absurd (Option.isNone_iff_eq_none.mp hfk.1) hknown
          · exact ⟨⟨rfl, fun _ => rfl, by simp⟩, fun _ _ => rfl⟩
        · exact fun hf => ⟨.nil _, fun hrel => by simp [(hrel _).1] at hf⟩
        · exact fun hf => ⟨by split <;> exact ⟨rfl, fun _ => rfl, by simp⟩,
            fun hrel => by simp [(hrel _).1] at hf⟩
      refine Prog.wp_mono hstore fun res u hres => ?_
      have hall : Appends [.writeA r addr (rrset s.state r) after] s.state
          u.state := by simpa using h.trans hres.1
      rcases res with err | _
      · refine ⟨.inr ⟨after, hafter, hall, fun hrel hknown => ?_⟩,
          by rintro _ ⟨⟩⟩
        cases hres.2 hrel hknown
      · refine ⟨.inr ⟨after, hafter, hall, fun _ _ => ⟨_, rfl⟩⟩, ?_⟩
        rintro r' hr'
        rw [← Except.ok.inj hr']

/-! ## The callers that fire -/

theorem fetchRecord_spec (env : Env) (r : Record) (o : Oracle Call)
    (s : Sys World) :
    (fetchRecord env r).wp o s fun res t => t.state = s.state ∧
      ∀ found, res = .ok found → found = rrset s.state r := by
  unfold fetchRecord
  rw [Prog.wp_bind, Prog.wp_ofExcept]
  cases clientForRecord env r with
  | error err => exact ⟨rfl, nofun⟩
  | ok token => exact findResourceRecordSet_spec r o s

/-- Where the first value is another one, writing the address is a change. -/
theorem changes_of_head {found : Option RRSet} {ip : GoString} {after : RRSet}
    (hfirst : (found.bind fun rrset => rrset.values.head?) ≠ some ip)
    (hafter : after.values = [ip]) : changes found after = true := by
  rw [changes, bne_iff_ne]
  intro h
  cases found with
  | none => cases h
  | some old =>
      have hvalues : old.values = [ip] := by
        rw [← hafter]
        simpa using h
      simp [hvalues] at hfirst

/-- The status of a record is "updated" exactly when its record set was
changed. -/
theorem refreshRecordStatus_appends (env : Env) (r : Record) (addr : Address)
    {o : Oracle Call} {s : Sys World} (hrel : Reliable o)
    (hknown : Known addr s.state) :
    (refreshRecordStatus env r addr).wp o s fun res t => ∃ status,
      res = .ok status ∧
        ((status.result ≠ resultUpdated ∧ Appends [] s.state t.state) ∨
          (status.result = resultUpdated ∧ ∃ after,
            changes (rrset s.state r) after = true ∧
              Appends [.writeA r addr (rrset s.state r) after] s.state
                t.state)) := by
  have hfailed : resultFailed ≠ resultUpdated := by decide
  have hunchanged : resultUnchanged ≠ resultUpdated := by decide
  unfold refreshRecordStatus
  cases hip : addr.ipv4 with
  | none => exact ⟨_, rfl, .inl ⟨hfailed, .nil _⟩⟩
  | some ip =>
      show Prog.wp _ o s _
      rw [Prog.wp_bind, Prog.wp_attempt]
      refine Prog.wp_mono (fetchRecord_spec env r o s) ?_
      rintro (err | found) t ⟨ht, hfound⟩
      · exact ⟨_, rfl, .inl ⟨hfailed, ht ▸ .nil _⟩⟩
      have hrrset := hfound found rfl
      rw [← ht] at hrrset hknown ⊢
      dsimp only
      split
      · exact ⟨_, rfl, .inl ⟨hunchanged, .nil _⟩⟩
      next hfirst =>
      rw [Prog.wp_bind, Prog.wp_attempt]
      refine Prog.wp_mono (updateRecord_appends env r addr o t) ?_
      rintro res u ⟨hout, -⟩
      rcases hout with ⟨h, err, rfl⟩ | ⟨after, hafter, h, hok⟩
      · exact ⟨_, rfl, .inl ⟨hfailed, h⟩⟩
      · obtain ⟨a, rfl⟩ := hok hrel hknown
        rw [hip] at hafter
        exact ⟨_, rfl, .inr ⟨rfl, after,
          changes_of_head (hrrset ▸ hfirst) hafter, h⟩⟩

/-- Steps of a pass that applies `addr`: debts stay, and what is appended is
accounted for. -/
def Fires (addr : Address) (w w' : World) : Prop :=
  Known addr w → Known addr w' ∧
    (∀ id, owedBy w' id = owedBy w id) ∧ FiresExactly w w'

theorem Fires.refl (addr : Address) (w : World) : Fires addr w w :=
  fun h => ⟨h, fun _ => rfl, [], by simp, rfl⟩

theorem FiresExactly.trans {w₁ w₂ w₃ : World}
    (howed : ∀ id, owedBy w₂ id = owedBy w₁ id) (h : FiresExactly w₁ w₂)
    (h' : FiresExactly w₂ w₃) : FiresExactly w₁ w₃ := by
  obtain ⟨es, hes, hacc⟩ := h
  obtain ⟨es', hes', hacc'⟩ := h'
  exact ⟨es ++ es', by rw [hes', hes, List.append_assoc],
    accounted_append hacc (accounted_congr howed hacc')⟩

theorem Fires.trans (addr : Address) (w₁ w₂ w₃ : World)
    (h : Fires addr w₁ w₂) (h' : Fires addr w₂ w₃) : Fires addr w₁ w₃ := by
  intro hknown
  obtain ⟨hknown₂, howed, hfires⟩ := h hknown
  obtain ⟨hknown₃, howed', hfires'⟩ := h' hknown₂
  exact ⟨hknown₃, fun id => (howed' id).trans (howed id),
    hfires.trans howed hfires'⟩

theorem Fires.calm (addr : Address) (w w' : World) (h : Calm w w') :
    Fires addr w w' := by
  intro hknown
  obtain ⟨es, hes, hcalm⟩ := h.events
  refine ⟨?_, fun id => ?_, es, hes, accounted_of_calm hcalm⟩
  · rw [Known, h.addresses]; exact hknown
  · rw [owedBy, h.tasks]; rfl

/-- What was appended is accounted for. -/
theorem Appends.fires {es : List Event} {w w' : World} (h : Appends es w w')
    (hes : Accounted w es) (addr : Address) : Fires addr w w' := by
  intro hknown
  refine ⟨?_, h.owed, es, h.events, hes⟩
  rw [Known, h.addresses]
  exact hknown

/-- A write that changes the record set, and what it is owed. -/
private theorem fires_change {r : Record} {addr : Address} {after : RRSet}
    {w w₁ w₂ : World}
    (hchange : changes (rrset w r) after = true)
    (hwrite : Appends [.writeA r addr (rrset w r) after] w w₁)
    (hfire : Appends (owedBy w₁ r.id) w₁ w₂) : Fires addr w w₂ := by
  refine (hwrite.trans hfire).fires ?_ addr
  refine accounted_write r addr _ _ ?_
  rw [if_pos hchange, ← hwrite.owed]
  rfl

/-- One record of the pass. -/
theorem refreshOne_fires (env : Env) (addr : Address) {o : Oracle Call}
    (hrel : Reliable o) (report : Report) (r : Record) :
    Prog.Keeps o (Fires addr) (refreshOne env addr report r) := by
  intro s
  by_cases hknown : Known addr s.state
  · unfold refreshOne
    split
    · rw [Prog.wp_bind]
      refine Prog.wp_mono (refreshRecordStatus_appends env r addr hrel hknown) ?_
      rintro _ t ⟨status, rfl, hstatus⟩
      show Prog.wp _ o t _
      rw [Prog.wp_bind]
      rcases hstatus with ⟨hne, h⟩ | ⟨heq, after, hchange, hwrite⟩
      · unfold countResult
        rw [if_neg hne]
        split
        · exact h.fires rfl addr
        · exact h.fires rfl addr
      · unfold countResult
        rw [if_pos heq, Prog.wp_bind]
        refine Prog.wp_mono (fireTasks_appends env r.id (hrel _).2.1) ?_
        rintro _ u ⟨rfl, hfire⟩
        exact fires_change hchange hwrite hfire
    · exact Fires.refl addr _
  · exact fun h => absurd h hknown

/-- One record refreshed by itself. -/
theorem applyCurrent_fires (env : Env) (r : Record) (addr : Address)
    {ip : GoString} (hip : addr.ipv4 = some ip) {o : Oracle Call}
    (hrel : Reliable o) :
    Prog.Keeps o (Fires addr) (applyCurrent env r addr ip) := by
  intro s
  by_cases hknown : Known addr s.state
  · unfold applyCurrent
    rw [Prog.wp_bind]
    refine Prog.wp_mono (fetchRecord_spec env r o s) ?_
    rintro (err | found) t ⟨ht, hfound⟩
    · exact ht ▸ Fires.refl addr _
    have hrrset := hfound found rfl
    rw [← ht] at hrrset hknown ⊢
    show Prog.wp _ o t _
    split
    · exact Fires.refl addr _
    next hfirst =>
    rw [Prog.wp_bind]
    refine Prog.wp_mono (updateRecord_appends env r addr o t) ?_
    rintro res u ⟨hout, hid⟩
    rcases hout with ⟨h, err, rfl⟩ | ⟨after, hafter, hwrite, hok⟩
    · exact h.fires rfl addr
    obtain ⟨r', rfl⟩ := hok hrel hknown
    rw [hip] at hafter
    have hchange := changes_of_head (hrrset ▸ hfirst) hafter
    show Prog.wp _ o u _
    rw [Prog.wp_bind, hid r' rfl]
    refine Prog.wp_mono (fireTasks_appends env r.id (hrel _).2.1) ?_
    rintro _ v ⟨rfl, hfire⟩
    exact fires_change hchange hwrite hfire
  · exact fun h => absurd h hknown

theorem refreshAll_fires (env : Env) (addr : Address) {o : Oracle Call}
    (hrel : Reliable o) : Prog.Keeps o (Fires addr) (refreshAll env addr) := by
  have hrefl := Fires.refl addr
  have htrans := Fires.trans addr
  have hcert : ∀ report r,
      Prog.Keeps o (Fires addr) (certificateOne env report r) :=
    fun report r => (certificateOne_calm o env report r).mono (Fires.calm addr)
  refine .bind htrans (.attempt (.mapError (.query hrefl) _)) fun r => ?_
  cases r with
  | error err => exact (giveUp_calm o env _ _ _).mono (Fires.calm addr)
  | ok records =>
      refine .bind htrans (.foldlM hrefl htrans
        (refreshOne_fires env addr hrel) _ _) fun report => ?_
      exact .bind htrans (.foldlM hrefl htrans hcert _ _) fun report =>
        (finishReport_calm o report).mono (Fires.calm addr)

/-! ## The operations -/

theorem known_of_mem {addr : Address} {w : World}
    (h : addr ∈ w.addresses.rows) : Known addr w := by
  have hfind : w.addresses.find? addr.id = some addr := Table.find?_of_mem h
  rw [Known, hfind]
  rfl

theorem firesExactly_of_calm {w w' : World} (h : Calm w w') :
    FiresExactly w w' := by
  obtain ⟨es, hes, hcalm⟩ := h.events
  exact ⟨es, hes, accounted_of_calm hcalm⟩

theorem owedBy_of_calm {w w' : World} (h : Calm w w') (id : Int) :
    owedBy w' id = owedBy w id := by
  rw [owedBy, h.tasks]; rfl

/-- Storing the address appends nothing. -/
theorem firesExactly_of_saved {ipv4 ipv6 : GoString} {w w' : World}
    {r : Except GoError Address} (h : Saved ipv4 ipv6 w r w') :
    FiresExactly w w' ∧ ∀ id, owedBy w' id = owedBy w id := by
  rw [h.frame]
  exact ⟨⟨[], by simp, rfl⟩, fun _ => rfl⟩

theorem refresh_fires (env : Env) {o : Oracle Call} (hrel : Reliable o)
    (s : Sys World) :
    (refresh env).wp o s fun _ t => FiresExactly s.state t.state := by
  unfold refresh
  rw [Prog.wp_bind, Prog.wp_attempt]
  refine Prog.wp_mono (updateAddress_spec env o s) ?_
  rintro (err | addr) t hsaved
  · obtain ⟨hfires, howed⟩ := firesExactly_of_saved hsaved
    exact Prog.wp_mono (giveUp_calm o env _ _ _ t)
      fun _ _ h => hfires.trans howed (firesExactly_of_calm h)
  · obtain ⟨hfires, howed⟩ := firesExactly_of_saved hsaved
    have hknown := known_of_mem (hsaved.stored addr rfl).1
    exact Prog.wp_mono (refreshAll_fires env addr hrel t)
      fun _ _ h => hfires.trans howed (h hknown).2.2

theorem refreshRecord_fires (env : Env) (r : Record) {o : Oracle Call}
    (hrel : Reliable o) (s : Sys World) :
    (refreshRecord env r).wp o s fun _ t => FiresExactly s.state t.state ∧
      ∀ id, owedBy t.state id = owedBy s.state id := by
  have hnone : FiresExactly s.state s.state ∧
      ∀ id, owedBy s.state id = owedBy s.state id :=
    ⟨firesExactly_of_calm (Calm.refl _), fun _ => rfl⟩
  unfold refreshRecord
  split
  · rw [Prog.wp_bind, Prog.wp_mapError]
    refine Prog.wp_mono (getCurrentAddress_spec o s) ?_
    rintro (err | addr) t ⟨ht, hread⟩
    · exact ht ▸ hnone
    have hknown := known_of_mem (currentAddress_mem (hread addr rfl))
    rw [← ht] at hnone hknown ⊢
    show Prog.wp _ o t _
    cases hip : addr.ipv4 with
    | none => exact hnone
    | some ip =>
        refine Prog.wp_mono (applyCurrent_fires env r addr hip hrel t) ?_
        exact fun _ _ h => ⟨(h hknown).2.2, (h hknown).2.1⟩
  · exact hnone

theorem upsertRecord_fires (env : Env) (input : RecordInput)
    {o : Oracle Call} (hrel : Reliable o) (s : Sys World) :
    (upsertRecord env input).wp o s fun _ t =>
      FiresExactly s.state t.state := by
  unfold upsertRecord
  rw [Prog.wp_bind, Prog.wp_ofExcept]
  cases checkInput env input with
  | error err => exact firesExactly_of_calm (Calm.refl _)
  | ok encrypted =>
      show Prog.wp _ o s _
      rw [Prog.wp_bind, Prog.wp_mapError]
      refine Prog.wp_mono (saveRecord_calm o env input encrypted s) ?_
      rintro (err | record) t hcalm
      · exact firesExactly_of_calm hcalm
      have hsave := firesExactly_of_calm hcalm
      show Prog.wp _ o t _
      unfold afterSave
      rw [Prog.wp_bind, Prog.wp_mapError]
      refine Prog.wp_mono (refreshRecord_fires env record hrel t) ?_
      rintro (err | record) u ⟨hfires, howed⟩
      · exact hsave.trans (owedBy_of_calm hcalm) hfires
      have hrest := Prog.Keeps.bind Calm.trans
        (issueAfterSave_calm o env record) fun _ => answer_calm o record
      refine Prog.wp_mono (hrest u) fun _ v hv => ?_
      exact hsave.trans (owedBy_of_calm hcalm)
        (hfires.trans howed (firesExactly_of_calm hv))

/-- `Server.RefreshRecord` fires nothing, so its write must be owed nothing. -/
theorem serverRefreshRecord_fires (env : Env) (id : Int) (o : Oracle Call)
    (s : Sys World)
    (hquiet : ∀ r, s.state.records.find? id = some r →
      (rrset s.state r).map (·.values) = some [env.consensus4.1] ∨
        owedBy s.state id = []) :
    (Server.refreshRecord env id).wp o s fun _ t =>
      FiresExactly s.state t.state := by
  have hstored : (refreshStored env id).wp o s fun _ t =>
      FiresExactly s.state t.state := by
    unfold refreshStored
    rw [Prog.wp_bind, Prog.wp_mapError]
    refine Prog.wp_mono (getRecord_spec o s id) ?_
    rintro (err | record) t ⟨ht, hfound⟩
    · exact ht ▸ firesExactly_of_calm (Calm.refl _)
    have hrecord := hfound record rfl
    have hid : record.id = id := Table.find?_key hrecord
    rw [← ht]
    rw [← ht] at hquiet hrecord
    show Prog.wp _ o t _
    rw [Prog.wp_bind, Prog.wp_mapError]
    refine Prog.wp_mono (updateAddress_spec env o t) ?_
    rintro (err | addr) u hsaved
    · exact (firesExactly_of_saved hsaved).1
    obtain ⟨hfires, howed⟩ := firesExactly_of_saved hsaved
    have hrrset : rrset u.state record = rrset t.state record := by
      rw [hsaved.frame]; rfl
    show Prog.wp _ o u _
    rw [Prog.wp_bind, Prog.wp_mapError]
    have hupdate : (updateRecord env record addr).wp o u fun _ v =>
        FiresExactly u.state v.state := by
      refine Prog.wp_mono (updateRecord_appends env record addr o u) ?_
      rintro res v ⟨⟨h, _⟩ | ⟨after, hafter, h, _⟩, _⟩
      · exact ⟨[], h.events, rfl⟩
      · refine ⟨_, h.events, accounted_write record addr _ _ ?_⟩
        rcases hquiet record hrecord with hsame | hnone
        · have hno : changes (rrset u.state record) after = false := by
            rw [changes, hrrset, hsame, hafter,
              (hsaved.stored addr rfl).2.1, bne_self_eq_false]
          rw [hno]; rfl
        · rw [howed, hid, hnone, ite_self]
    refine Prog.wp_mono hupdate ?_
    rintro (err | record') v h
    · exact hfires.trans howed h
    · exact hfires.trans howed h
  unfold Server.refreshRecord
  rw [Prog.wp_bind, Prog.wp_mapError]
  refine Prog.wp_mono hstored ?_
  rintro (err | ⟨record, addr⟩) t h
  · exact h
  · exact h

/-- Nothing comes between a write and the runs it is owed, and a call of
`Server.RefreshRecord`, which fires nothing, owes nothing: its record set holds
the resolved IPv4 already, or its record has no enabled task for it. -/
def Undisturbed (w : World) : Op → Prop
  | .refresh _ o => Reliable o
  | .upsertRecord _ o _ => Reliable o
  | .serverRefreshRecord env _ id =>
      ∀ r, w.records.find? id = some r →
        (rrset w r).map (·.values) = some [env.consensus4.1] ∨
          owedBy w id = []
  | .serverRefreshAddress _ _ => True
  | .elsewhere _ => True

/-- **Step lemma.** -/
theorem op_firesExactly (w : World) (op : Op) (h : Undisturbed w op) :
    FiresExactly w (op.apply w) := by
  cases op with
  | refresh env o => exact refresh_fires env h ⟨w, 0⟩
  | upsertRecord env o input => exact upsertRecord_fires env input h ⟨w, 0⟩
  | serverRefreshRecord env o id =>
      exact serverRefreshRecord_fires env id o ⟨w, 0⟩ h
  | serverRefreshAddress env o =>
      have hsaved := updateAddress_spec env o ⟨w, 0⟩
      have hwp : (Server.refreshAddress env).wp o ⟨w, 0⟩ fun _ t =>
          FiresExactly w t.state := by
        unfold Server.refreshAddress
        rw [Prog.wp_bind, Prog.wp_mapError]
        refine Prog.wp_mono hsaved ?_
        rintro (err | addr) t h
        · exact (firesExactly_of_saved h).1
        · exact (firesExactly_of_saved h).1
      exact hwp
  | elsewhere c => exact ⟨[], by simp [Op.apply], rfl⟩

/-- **No change is lost, none is invented.**  In every run whose steps are
undisturbed, each operation executes, for every write that changes a record
set, each enabled address-change task of the record exactly once, and no such
task otherwise. -/
theorem undisturbed_operations_are_accounted (w : World) (ops : List Op)
    (h : operations.Along Undisturbed w ops) :
    operations.Along (fun w op => FiresExactly w (op.apply w)) w ops :=
  operations.along_mono op_firesExactly ops w h

private def watchedRecord (id : Int) : Record :=
  ⟨id, "t", 7, "example.org", "www", 60, none, purposeDDNS, false, none⟩

private def watchedTask (id : Int) : Schema.Task :=
  ⟨id, 1, "notify", triggerIP, "POST", "https://hook.example", none, none,
    false, true, none, none, none, "pem"⟩

/-- A DDNS record with one enabled address-change task. -/
private def watched : Elsewhere where
  records := Table.empty.insert watchedRecord
  certificates := .empty
  tasks := Table.empty.insert watchedTask
  taskRuns := .empty
  zones := fun _ _ => none
  pending := fun _ => false

private def noZones : World := World.init fun _ _ => none

private def onlineEnv : Env :=
  { Env.sample with consensus4 := ("203.0.113.1", none) }

theorem undisturbed_operations_are_accounted_refresh :
    operations.Along (fun w op => FiresExactly w (op.apply w)) noZones
      [.elsewhere watched, .refresh onlineEnv .quiet] :=
  undisturbed_operations_are_accounted noZones _
    ⟨trivial, fun _ => ⟨rfl, rfl, nofun, nofun⟩, trivial⟩

/-- The statement that stores the address fails. -/
private def storeFails : Oracle Call := fun _ c =>
  if c = .updateRecordAddress then .fails else .none

/-- `Server.RefreshRecord` creates the record set and runs no task; and a pass
whose `UpdateRecordAddress` fails after the write runs none either. -/
theorem changes_without_task_runs :
    ¬operations.Along (fun w op => FiresExactly w (op.apply w)) noZones
        [.elsewhere watched, .serverRefreshRecord onlineEnv .quiet 1] ∧
      ¬operations.Along (fun w op => FiresExactly w (op.apply w)) noZones
        [.elsewhere watched, .refresh onlineEnv storeFails] := by
  constructor
  · rintro ⟨_, ⟨es, hes, hacc⟩, _⟩
    obtain rfl : (Op.apply (.serverRefreshRecord onlineEnv .quiet 1)
      (Op.apply (.elsewhere watched) noZones)).events = es := hes
    exact absurd hacc (by decide)
  · rintro ⟨_, ⟨es, hes, hacc⟩, _⟩
    obtain rfl : (Op.apply (.refresh onlineEnv storeFails)
      (Op.apply (.elsewhere watched) noZones)).events = es := hes
    exact absurd hacc (by decide)

end Hdns.Ports.TaskFiring

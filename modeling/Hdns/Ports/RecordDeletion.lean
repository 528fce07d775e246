import Hdns.Ports.Operations

/-!
# Deleting a record

`DeleteRecord` of the API deletes the A record set at Hetzner, if it is asked
to, and then the row with everything that refers to it.  The two deletions are
separate external calls, so the second can fail after the first has taken
effect.  A repetition of the request then finds a record without a record set,
which `dns.DeleteRecord` takes for an error; `deleteTXTRecord` does not.

## Main results

* `deletion_retried_iff` — which failed requests can be repeated.
-/

namespace Hdns.Ports.RecordDeletion

open Hdns.Verified
open Hdns.Ports.Schema
open Hdns.Ports.Hetzner
open Hdns.Ports.Records
open Hdns.Ports.Operations

/-! ## The program -/

/-- The zones after one record set has been removed. -/
def Zones.remove (z : Zones) (zoneID : Int) (name : GoString) : Zones :=
  fun i n => if i = zoneID ∧ n = name then none else z i n

@[simp] theorem Zones.remove_self (z : Zones) (zoneID : Int)
    (name : GoString) : Zones.remove z zoneID name zoneID name = none :=
  if_pos ⟨rfl, rfl⟩

/-- The world without the A record set of `r`. -/
def cleared (r : Record) (w : World) : World :=
  { w with zones := Zones.remove w.zones r.zoneID r.name }

/-- `Zone.DeleteRRSet`: what is not there cannot be deleted. -/
def deleteRRSet (r : Record) (w : World) : Except GoError Unit × World :=
  match rrset w r with
  | none => (.error (.external "hcloud: RRSet not found"), w)
  | some _ => (.ok (), cleared r w)

/-- `dns.DeleteRecord`. -/
def deleteRecord (env : Env) (r : Record) : Handler Unit := do
  let _ ← Prog.ofExcept ((clientForRecord env r).mapError .wrap)
  let found ← (findResourceRecordSet r).mapError .wrap
  match found with
  | none => Prog.throw (.newError "record not found")
  | some _ =>
      (Prog.call .deleteRRSet .api (deleteRRSet r)).mapError
        (.because "failed to delete RRSet")

/-- The world without a record and, as the foreign keys say, without the rows
that belong to it; what only mentions such a row mentions none. -/
def withoutRecord (id : Int) (w : World) : World :=
  let ofCertificate := fun c : Certificate => c.recordID == id
  let ofTask := fun t : Task => t.recordID == id
  let ofJob := fun j : CertificateJob => j.recordID == id
  let certificates := w.certificates.rows.filter ofCertificate
  let tasks := w.tasks.rows.filter ofTask
  let jobs := w.certificateJobs.rows.filter ofJob
  { w with
    records := w.records.deleteWhere fun r => r.id == id
    certificates := w.certificates.deleteWhere ofCertificate
    tasks := w.tasks.deleteWhere ofTask
    certificateJobs := (w.certificateJobs.deleteWhere ofJob).updateWhere
      (fun j => certificates.any fun c => some c.id == j.certificateID)
      fun j => { j with certificateID := none }
    taskRuns := (w.taskRuns.deleteWhere fun run => run.recordID == id ||
      tasks.any fun t => t.id == run.taskID).updateWhere
      (fun run => jobs.any fun j => some j.id == run.certificateJobID)
      fun run => { run with certificateJobID := none } }

/-- The statement `DeleteRecord`: no row with the id is no error. -/
def deleteRecordRow (id : Int) : Handler Unit :=
  .call .deleteRecord .driver fun w =>
    if (w.records.find? id).isNone then (.ok (), w)
    else (.ok (), withoutRecord id w)

/-- `service.RecordDelete`: the id of its record, if it has one. -/
structure RecordDelete where
  record : Option Int
  deleteFromHetzner : Bool
  deriving DecidableEq, Repr

/-- What the callback does at Hetzner. -/
def deleteAtHetzner (env : Env) (record : Record) (fromHetzner : Bool) :
    Handler Unit :=
  if fromHetzner then
    (deleteRecord env record).mapError
      (.because "failed to delete record from Hetzner DNS")
  else pure ()

/-- The callback of `Server.DeleteRecord`. -/
def deleteStored (env : Env) (id : Int) (fromHetzner : Bool) :
    Handler Unit := do
  let record ← (getRecord id).mapError
    (.because "failed to fetch record from database")
  deleteAtHetzner env record fromHetzner
  (deleteRecordRow id).mapError
    (.because "failed to delete record from database")

/-- `Server.DeleteRecord`. -/
def Server.deleteRecord (env : Env) (input : RecordDelete) : Handler Unit :=
  match input.record with
  | none => Prog.throw (.newError "record is required")
  | some id => (deleteStored env id input.deleteFromHetzner).mapError .wrap

/-! ## One request -/

/-- The request that deletes a record everywhere. -/
def request (env : Env) (id : Int) : Handler Unit :=
  Server.deleteRecord env ⟨some id, true⟩

/-- The calls in front of the deletion at Hetzner get through. -/
def Reaches (env : Env) (o : Oracle Call) (clock : Nat) (r : Record) : Prop :=
  o clock .getRecord = .none ∧ (∃ token, clientForRecord env r = .ok token) ∧
    o (clock + 1) .getRRSet = .none

/-- The record set is deleted, and the row is not. -/
def Interrupted (env : Env) (o : Oracle Call) (clock : Nat) (r : Record) :
    Prop :=
  Reaches env o clock r ∧
    (o (clock + 2) .deleteRRSet = .lostReply ∨
      o (clock + 2) .deleteRRSet = .none ∧
        o (clock + 3) .deleteRecord = .fails)

/-- A program fails and leaves the world as it was. -/
def Refuses {α : Type} (w : World) (res : Except GoError α) (t : Sys World) :
    Prop := (∃ err, res = .error err) ∧ t.state = w

section Refuses

variable {α β : Type} {o : Oracle Call} {s : Sys World} {w : World}

theorem Refuses.mapError {p : Handler α} (h : p.wp o s (Refuses w))
    (f : GoError → GoError) : (p.mapError f).wp o s (Refuses w) := by
  refine (Prog.wp_mapError f p _).mpr (Prog.wp_mono h ?_)
  rintro _ t ⟨⟨err, rfl⟩, ht⟩
  exact ⟨⟨f err, rfl⟩, ht⟩

theorem Refuses.bind {p : Handler α} {f : α → Handler β}
    (h : p.wp o s (Refuses w)) : (p >>= f).wp o s (Refuses w) := by
  refine Prog.wp_bind_of h (fun err t ht => ⟨⟨err, rfl⟩, ht.2⟩) ?_
  rintro a t ⟨⟨err, herr⟩, -⟩
  cases herr

end Refuses

section Request

variable {env : Env} {o : Oracle Call} {s : Sys World} {id : Int} {r : Record}

/-- Without the row there is nothing to be found. -/
theorem refuses_of_gone (hrow : s.state.records.find? id = none) :
    (request env id).wp o s (Refuses s.state) := by
  have hget : (getRecord id).wp o s (Refuses s.state) := by
    refine Prog.wp_query_of ⟨⟨.noRows, ?_⟩, rfl⟩ ⟨⟨_, rfl⟩, rfl⟩
    rw [hrow]
  exact Refuses.mapError (Refuses.bind (Refuses.mapError hget _)) _

/-- A request that does not get to the deletion at Hetzner, or that finds no
record set there. -/
theorem refuses_of_missed (hrow : s.state.records.find? id = some r)
    (hmissed : Reaches env o s.clock r → rrset s.state r = none) :
    (request env id).wp o s (Refuses s.state) := by
  refine Refuses.mapError ?_ _
  by_cases hget : o s.clock .getRecord = .none
  · rw [deleteStored, Prog.wp_bind, Prog.wp_mapError, getRecord,
      Prog.wp_query_none hget, hrow]
    refine Refuses.bind (Refuses.mapError ?_ _)
    rw [deleteRecord, Prog.wp_bind, Prog.wp_ofExcept]
    cases hclient : clientForRecord env r with
    | error err => exact ⟨⟨_, rfl⟩, rfl⟩
    | ok token =>
        show Prog.wp _ o _ _
        rw [Prog.wp_bind, Prog.wp_mapError, findResourceRecordSet,
          Prog.wp_mapError]
        by_cases hfind : o (s.clock + 1) .getRRSet = .none
        · rw [Prog.wp_query_none hfind,
            hmissed ⟨hget, ⟨token, hclient⟩, hfind⟩]
          exact ⟨⟨_, rfl⟩, rfl⟩
        · rw [Prog.wp_query_faulty hfind]
          exact ⟨⟨_, rfl⟩, rfl⟩
  · refine Refuses.bind (Refuses.mapError ?_ _)
    rw [getRecord, Prog.wp_query_faulty hget]
    exact ⟨⟨_, rfl⟩, rfl⟩

/-- The two deletions. -/
def deletions (id : Int) (r : Record) : Handler Unit := do
  ((Prog.call .deleteRRSet .api (deleteRRSet r)).mapError
    (.because "failed to delete RRSet")).mapError
      (.because "failed to delete record from Hetzner DNS")
  (deleteRecordRow id).mapError
    (.because "failed to delete record from database")

/-- A request that gets to the deletions. -/
theorem request_reaches (hrow : s.state.records.find? id = some r)
    (hreaches : Reaches env o s.clock r) (hset : rrset s.state r ≠ none)
    (Q : Except GoError Unit → Sys World → Prop) :
    (request env id).wp o s Q ↔
      (deletions id r).wp o ⟨s.state, s.clock + 2⟩ fun res t =>
        Q (res.mapError .wrap) t := by
  obtain ⟨hget, ⟨token, hclient⟩, hfind⟩ := hreaches
  obtain ⟨old, hold⟩ := Option.ne_none_iff_exists'.mp hset
  rw [deletions, Prog.wp_bind, request, Server.deleteRecord, Prog.wp_mapError,
    deleteStored, Prog.wp_bind, Prog.wp_mapError, getRecord,
    Prog.wp_query_none hget, hrow]
  show Prog.wp _ o _ _ ↔ _
  rw [Prog.wp_bind, deleteAtHetzner, if_pos rfl, Prog.wp_mapError,
    deleteRecord, Prog.wp_bind, Prog.wp_ofExcept, hclient]
  show Prog.wp _ o _ _ ↔ _
  rw [Prog.wp_bind, Prog.wp_mapError, findResourceRecordSet, Prog.wp_mapError,
    Prog.wp_query_none hfind, hold]
  exact Iff.rfl

/-- No row, and no A record set of its name. -/
structure Deleted (id : Int) (r : Record) (w : World) : Prop where
  row : w.records.find? id = none
  set : rrset w r = none

theorem rrset_cleared (r : Record) (w : World) :
    rrset (cleared r w) r = none := Zones.remove_self _ _ _

theorem deleted_withoutRecord (id : Int) (r : Record) (w : World) :
    Deleted id r (withoutRecord id (cleared r w)) :=
  ⟨Table.find?_deleteWhere w.records id, rrset_cleared r w⟩

/-- The deletion at Hetzner, where there is something to delete. -/
theorem deleteRRSet_eq (hset : rrset s.state r ≠ none) :
    deleteRRSet r s.state = (.ok (), cleared r s.state) := by
  obtain ⟨old, hold⟩ := Option.ne_none_iff_exists'.mp hset
  rw [deleteRRSet, hold]

/-- **Nothing goes wrong**: the record and its record set are deleted. -/
theorem request_deletes (hrow : s.state.records.find? id = some r)
    (hclient : ∃ token, clientForRecord env r = .ok token)
    (hset : rrset s.state r ≠ none) :
    (request env id).wp .quiet s fun res t =>
      res = .ok () ∧ Deleted id r t.state := by
  refine (request_reaches hrow ⟨rfl, hclient, rfl⟩ hset _).mpr ?_
  rw [deletions, Prog.wp_bind, Prog.wp_mapError, Prog.wp_mapError,
    Prog.wp_call_quiet, deleteRRSet_eq hset]
  show Prog.wp _ _ _ _
  rw [Prog.wp_mapError, deleteRecordRow, Prog.wp_call_quiet]
  have hfound : (cleared r s.state).records.find? id = some r := hrow
  simp only [hfound, Option.isNone_some, Bool.false_eq_true, if_false]
  exact ⟨rfl, deleted_withoutRecord id r s.state⟩

/-- What a repetition is to do. -/
def Repeats (env' : Env) (id : Int) (r : Record) (t : Sys World) : Prop :=
  (request env' id).wp .quiet t fun res u => Deleted id r u.state ∧
    (t.state.records.find? id ≠ none → res = .ok ())

/-- A failed request can be repeated: the repetition, in which nothing fails
any more, leaves neither the row nor the record set, and it succeeds where it
finds the row. -/
def Retried (env env' : Env) (o : Oracle Call) (s : Sys World) (id : Int)
    (r : Record) : Prop :=
  (request env id).wp o s fun res t =>
    (∃ err, res = .error err) → Repeats env' id r t

theorem repeats_of_present (hrow : s.state.records.find? id = some r)
    (hclient : ∃ token, clientForRecord env r = .ok token)
    (hset : rrset s.state r ≠ none) : Repeats env id r s :=
  Prog.wp_mono (request_deletes hrow hclient hset) fun _ _ h =>
    ⟨h.2, fun _ => h.1⟩

/-- The record set is gone and the row is not: it stays. -/
theorem not_repeats (hrow : s.state.records.find? id = some r)
    (hset : rrset s.state r = none) : ¬Repeats env id r s := by
  intro h
  obtain ⟨⟨hdeleted, -⟩, -, ht⟩ := Prog.wp_and h
    (refuses_of_missed (o := .quiet) hrow fun _ => hset)
  have hgone := hdeleted.row
  rw [ht, hrow] at hgone
  cases hgone

/-- The row is gone with the record set, though the answer was lost. -/
theorem repeats_of_gone {w : World}
    (hs : s.state = withoutRecord id (cleared r w)) : Repeats env id r s := by
  have hdeleted := deleted_withoutRecord id r w
  rw [← hs] at hdeleted
  refine Prog.wp_mono (refuses_of_gone hdeleted.row) ?_
  rintro res u ⟨-, hu⟩
  exact ⟨hu ▸ hdeleted, fun hrow => absurd hdeleted.row hrow⟩

/-- What is left of a request that has got to the deletions. -/
theorem deletions_repeats_iff {env' : Env}
    (hrow : s.state.records.find? id = some r)
    (hreaches : Reaches env o s.clock r) (hset : rrset s.state r ≠ none)
    (hclient : ∃ token, clientForRecord env' r = .ok token) :
    ((deletions id r).wp o ⟨s.state, s.clock + 2⟩ fun res t =>
        (∃ err, res.mapError GoError.wrap = .error err) →
          Repeats env' id r t) ↔
      ¬Interrupted env o s.clock r := by
  have hcleared : (cleared r s.state).records.find? id = some r := hrow
  rw [deletions, Prog.wp_bind, Prog.wp_mapError, Prog.wp_mapError, Interrupted,
    and_iff_right hreaches]
  cases hdelete : o (s.clock + 2) .deleteRRSet with
  | fails =>
      rw [Prog.wp_call_fails hdelete]
      exact iff_of_true (fun _ => repeats_of_present hrow hclient hset)
        (by simp)
  | lostReply =>
      rw [Prog.wp_call_lost hdelete, deleteRRSet_eq hset]
      exact iff_of_false (fun h =>
        not_repeats (s := ⟨cleared r s.state, s.clock + 3⟩) hcleared
          (rrset_cleared r s.state) (h ⟨_, rfl⟩)) (by simp)
  | none =>
      rw [Prog.wp_call_none hdelete, deleteRRSet_eq hset]
      show Prog.wp _ o _ _ ↔ _
      rw [Prog.wp_mapError, deleteRecordRow]
      cases hstatement : o (s.clock + 3) .deleteRecord with
      | fails =>
          rw [Prog.wp_call_fails hstatement]
          exact iff_of_false (fun h =>
            not_repeats (s := ⟨cleared r s.state, s.clock + 4⟩) hcleared
              (rrset_cleared r s.state) (h ⟨_, rfl⟩)) (by simp)
      | lostReply =>
          rw [Prog.wp_call_lost hstatement]
          refine iff_of_true (fun _ => repeats_of_gone (w := s.state) ?_)
            (by simp)
          simp [hcleared]
      | none =>
          rw [Prog.wp_call_none hstatement]
          refine iff_of_true ?_ (by simp)
          rintro ⟨err, herr⟩
          simp [hcleared, Except.mapError] at herr

end Request

/-- **When a failed deletion can be repeated.**  For every record whose token
can be read, every state and every pattern of failures: the record set is there
at the first request, and it is not deleted by it without the row. -/
theorem deletion_retried_iff (env env' : Env) (o : Oracle Call)
    (s : Sys World) {id : Int} {r : Record}
    (hrow : s.state.records.find? id = some r)
    (hclient : ∃ token, clientForRecord env' r = .ok token) :
    Retried env env' o s id r ↔
      rrset s.state r ≠ none ∧ ¬Interrupted env o s.clock r := by
  by_cases hset : rrset s.state r = none
  · have hfailed : (request env id).wp o s (Refuses s.state) :=
      refuses_of_missed hrow fun _ => hset
    refine iff_of_false (fun h => ?_) fun h => h.1 hset
    obtain ⟨herror, ht⟩ := hfailed
    refine not_repeats ?_ ?_ (h herror)
    · rw [ht]
      exact hrow
    · rw [ht]
      exact hset
  rw [and_iff_right hset]
  by_cases hreaches : Reaches env o s.clock r
  · refine (request_reaches hrow hreaches hset _).trans ?_
    exact deletions_repeats_iff hrow hreaches hset hclient
  · refine iff_of_true ?_ fun h => hreaches h.1
    refine Prog.wp_mono (refuses_of_missed hrow fun h => absurd h hreaches) ?_
    rintro res t ⟨-, ht⟩ -
    refine repeats_of_present ?_ hclient ?_
    · rw [ht]
      exact hrow
    · rw [ht]
      exact hset

private def stored : Record :=
  ⟨1, "token", 7, "example.org", "www", 60, none, purposeDDNS, false, none⟩

/-- A record and its record set. -/
private def published : Sys World :=
  ⟨{ World.init fun _ _ => some ⟨60, ["203.0.113.1"]⟩ with
    records := Table.empty.insert fun id => { stored with id := id } }, 0⟩

/-- Only the statement that deletes the row fails. -/
private def rowStays : Oracle Call := fun _ c =>
  if c = .deleteRecord then .fails else .none

/-- Only the deletion at Hetzner fails. -/
private def setStays : Oracle Call := fun _ c =>
  if c = .deleteRRSet then .fails else .none

theorem deletion_retried_iff_refused :
    Retried Env.sample Env.sample setStays published 1 stored :=
  (deletion_retried_iff Env.sample Env.sample setStays published rfl
    ⟨_, rfl⟩).mpr ⟨by decide, by simp [Interrupted, setStays]⟩

/-- A record whose row outlives its record set cannot be deleted any more, nor
can one that never had a record set. -/
theorem stranded_record_stays :
    ¬Retried Env.sample Env.sample rowStays published 1 stored ∧
      ((request Env.sample 1).wp rowStays published fun _ t =>
        (request Env.sample 1).wp .quiet t fun res u =>
          res ≠ .ok () ∧ u.state.records.find? 1 = some stored) ∧
      (request Env.sample 1).wp .quiet ⟨{ published.state with
        zones := fun _ _ => none }, 0⟩ fun res u =>
          res = .error (.wrap (.because
            "failed to delete record from Hetzner DNS"
              (.newError "record not found"))) ∧
            u.state.records.find? 1 = some stored := by
  refine ⟨fun h => ?_, ?_, ?_⟩
  · exact not_repeats (r := stored) rfl rfl (h ⟨_, rfl⟩)
  · unfold Prog.wp
    decide +kernel
  · unfold Prog.wp
    decide +kernel

end Hdns.Ports.RecordDeletion

import Hdns.Ports.CertificateReports
import Hdns.Ports.PendingStatus

/-!
# The status of a certificate that expires

The status of a certificate is stored: an issuance writes `valid` or `failed`
when it ends, and nothing writes `expired`, which the schema names.  A row says
`valid` until the next attempt for its record is recorded, however long that
takes, and the answers to clients and the refresh report repeat it.

The machine is that of `Issuances`, with a clock.  What the last recorded
attempt of each row has come to is watched.

## Main results

* `stage_step`, `next_step` — what a statement does to status and expiry.
* `known_step` — the rows say what the recorded attempts have come to.
* `valid_reports_are_fresh_iff` — no expired certificate is ever reported as
  valid if and only if the clock passes no expiry before the next attempt for
  the record is recorded.
-/

namespace Hdns.Ports.ExpiredStatus

open Hdns.Verified
open Hdns.Verified.GoString
open Hdns.Ports.Schema
open Hdns.Ports.UpdateAddress (dataTooLong)
open Hdns.Ports.Tasks
open Hdns.Ports.Service
open Hdns.Ports.Records
open Hdns.Ports.Certificates
open Hdns.Ports.IssuanceSteps
open Hdns.Ports.Issuances
open Hdns.Ports.CertificateEdits
open Hdns.Ports.CertificateReports
open Hdns.Ports.PendingStatus (RowsKept Beside stage_beside Outside AtFirst
  atFirst_after outside_or next_outside)

def statusValid : GoString := "valid"

/-! ## The machine -/

/-- The concurrent calls and the time; and for each certificate row the expiry
of the certificate that its last recorded attempt has obtained, none if that
attempt failed. -/
structure Watch where
  calls : State
  clock : Int
  obtained : Int → Option Int

/-- A freshly migrated database, before any call. -/
def Watch.start (zones : Zones) (clock : Int) : Watch :=
  ⟨Issuances.start (World.init zones), clock, fun _ => none⟩

/-- A statement is carried out, or time passes. -/
inductive Step where
  | call (a : Label)
  | pass (t : Int)

/-- What an issuance records in the row of its certificate with its next
statement, and in which row. -/
def recorded (w : World) (o : Oracle Call) : Stage → Option (Int × Option Int)
  | .update certID _ p =>
      if (w.certificates.find? certID).isSome ∧ p.rejected = false ∧
          o 0 .updateCertificate ≠ .fails
      then some (certID, p.notAfter) else none
  | .setFailed certID _ _ =>
      if (w.certificates.find? certID).isSome ∧
          o 0 .updateCertificateStatus ≠ .fails
      then some (certID, none) else none
  | _ => none

/-- Where a foreground issuance stands. -/
def stageOf : Pc → Option Stage
  | .issuing _ _ st _ => some st
  | _ => none

/-- What the statement of a label records. -/
def recordedBy (s : State) : Label → Option (Int × Option Int)
  | .main i _ o => (stageOf (s.threads i).main).bind (recorded s.world o)
  | .background i _ o =>
      (s.threads i).background.bind fun b => recorded s.world o b.2
  | _ => none

/-- The recorded outcomes with one more. -/
def withOutcome (obtained : Int → Option Int) :
    Option (Int × Option Int) → Int → Option Int
  | none => obtained
  | some (id, e) => fun i => if i = id then e else obtained i

/-- A statement reads the clock; calls outside the model do no more to the
certificate rows than to delete some of them. -/
def Admitted (s : Watch) : Label → Prop
  | .main _ env _ => env.now = s.clock
  | .background _ env _ => env.now = s.clock
  | .others w =>
      s.calls.world.certificates.next ≤ w.certificates.next ∧
        ∀ c ∈ w.certificates.rows, c ∈ s.calls.world.certificates.rows
  | .call _ _ => True

instance (s : Watch) (a : Label) : Decidable (Admitted s a) :=
  match a with
  | .main _ env _ => inferInstanceAs (Decidable (env.now = s.clock))
  | .background _ env _ => inferInstanceAs (Decidable (env.now = s.clock))
  | .others _ => inferInstanceAs (Decidable (_ ∧ _))
  | .call _ _ => .isTrue trivial

/-- The machine of `Issuances` with a clock that never goes back. -/
def timed : Machine Watch Step where
  step s
    | .call a =>
        if Admitted s a then (issuances.step s.calls a).map fun calls =>
          ⟨calls, s.clock, withOutcome s.obtained (recordedBy s.calls a)⟩
        else none
    | .pass t => if s.clock ≤ t then some { s with clock := t } else none

/-! ## Status and expiry of a row -/

/-- The row says what an attempt has come to: it is valid with this expiry, or
it is not valid. -/
def Shows (c : Certificate) : Option Int → Prop
  | some e => c.status = statusValid ∧ c.notAfter = some e
  | none => c.status ≠ statusValid

/-- What a statement that records `out` does to the certificate rows: some may
go, a new one is not valid, and the row of `out` shows it. -/
inductive RowsStep (w w' : World) : Option (Int × Option Int) → Prop where
  | kept (hnext : w.certificates.next ≤ w'.certificates.next)
      (hrows : ∀ c ∈ w'.certificates.rows, c ∈ w.certificates.rows ∨
        w.certificates.next ≤ c.id ∧ c.status ≠ statusValid) :
      RowsStep w w' none
  | recorded (id : Int) (e : Option Int) (hid : id < w.certificates.next)
      (hnext : w.certificates.next ≤ w'.certificates.next)
      (hmem : ∃ c ∈ w'.certificates.rows, c.id = id)
      (hrows : ∀ c ∈ w'.certificates.rows,
        c.id ≠ id ∧ c ∈ w.certificates.rows ∨ c.id = id ∧ Shows c e) :
      RowsStep w w' (some (id, e))

theorem rowsStep_of_eq {w w' : World} (h : w'.certificates = w.certificates) :
    RowsStep w w' none :=
  .kept (by rw [h]) fun c hc => .inl (h ▸ hc)

/-- A change of one row. -/
theorem rowsStep_updateWhere {w : World} {id : Int} {e : Option Int}
    (hrow : (w.certificates.find? id).isSome = true)
    (f : Certificate → Certificate) (hid : ∀ c, (f c).id = c.id)
    (hshows : ∀ c, Shows (f c) e) :
    RowsStep w { w with
      certificates := w.certificates.updateWhere (fun c => c.id == id) f hid }
      (some (id, e)) := by
  obtain ⟨row, hfind⟩ := Option.isSome_iff_exists.mp hrow
  have hmem : row ∈ w.certificates.rows := Table.find?_mem hfind
  have hkey : row.id = id := Table.find?_key hfind
  refine .recorded id e (hkey ▸ w.certificates.fresh row hmem) le_rfl
    ⟨f row, List.mem_map.mpr ⟨row, hmem, if_pos (by simp [hkey])⟩,
      (hid row).trans hkey⟩ fun c' hc' => ?_
  obtain ⟨c, hc, rfl⟩ := List.mem_map.mp hc'
  by_cases hc' : c.id = id
  · rw [if_pos (by simpa using hc')]
    exact .inr ⟨(hid c).trans hc', hshows c⟩
  · rw [if_neg (by simpa using hc')]
    exact .inl ⟨hc', hc⟩

/-! ## What a stage does -/

/-- The columns of an issuance that has got a certificate. -/
def Issued (p : CertificateParams) : Prop :=
  p.status = statusValid ∧ ∃ e, p.notAfter = some e

/-- An issuance stores nothing but what it has got. -/
def GoodStage : Stage → Prop
  | .update _ _ p => Issued p
  | _ => True

section Stages

variable {o : Oracle Call} {w : World}

/-- `UpdateCertificate` records its columns, unless it fails, they do not fit,
or the row has gone. -/
theorem updateCertificate_step {certID : Int} (jobID : Int)
    {p : CertificateParams} (hp : Issued p) :
    (updateCertificate certID p).wp o ⟨w, 0⟩ fun _ t =>
      RowsStep w t.state (recorded w o (.update certID jobID p)) := by
  obtain ⟨hstatus, e, he⟩ := hp
  by_cases ho : o 0 .updateCertificate = .fails
  · have hout : recorded w o (.update certID jobID p) = none :=
      if_neg fun h => h.2.2 ho
    refine (Prog.wp_call_fails ho).mpr ?_
    rw [hout]
    exact rowsStep_of_eq rfl
  by_cases hrow : (w.certificates.find? certID).isSome = true ∧
      p.rejected = false
  · have hout : recorded w o (.update certID jobID p) = some (certID, some e) :=
      (if_pos ⟨hrow.1, hrow.2, ho⟩).trans (by rw [he])
    have hupdate := rowsStep_updateWhere (e := some e) hrow.1 p.apply
      (fun _ => rfl) fun _ => ⟨hstatus, he⟩
    have hnone : ¬(w.certificates.find? certID).isNone = true := by
      rw [← Option.not_isSome, hrow.1]
      exact Bool.false_ne_true
    rw [hout]
    refine Prog.wp_call_of ?_ (fun h => absurd h ho) fun _ => ?_
    · rw [if_neg hnone, if_neg (by rw [hrow.2]; exact Bool.false_ne_true)]
      exact hupdate
    · rw [if_neg hnone, if_neg (by rw [hrow.2]; exact Bool.false_ne_true)]
      exact hupdate
  · have hout : recorded w o (.update certID jobID p) = none :=
      if_neg fun h => hrow ⟨h.1, h.2.1⟩
    have hkept : RowsStep w (if (w.certificates.find? certID).isNone then
        ((.ok (), w) : Except GoError Unit × World)
      else if p.rejected then (.error dataTooLong, w)
      else (.ok (), { w with
        certificates := w.certificates.updateWhere (fun c => c.id == certID)
          p.apply })).2 none := by
      split
      · exact rowsStep_of_eq rfl
      · next hsome =>
        split
        · exact rowsStep_of_eq rfl
        · next hfits =>
          refine absurd ⟨?_, eq_false_of_ne_true hfits⟩ hrow
          rw [← Option.not_isSome, Bool.not_eq_true'] at hsome
          exact eq_true_of_ne_false hsome
    rw [hout]
    exact Prog.wp_call_of hkept (fun _ => rowsStep_of_eq rfl) fun _ => hkept

/-- `setCertificateFailed` records the failure, unless its statement fails or
the row has gone. -/
theorem setCertificateFailed_step (env : Env) {certID : Int} (jobID : Int)
    (cause : GoError) :
    (setCertificateFailed env certID cause).wp o ⟨w, 0⟩ fun _ t =>
      RowsStep w t.state (recorded w o (.setFailed certID jobID cause)) := by
  refine (Prog.wp_bind _ _ _).mpr ((Prog.wp_attempt _ _).mpr ?_)
  by_cases ho : o 0 .updateCertificateStatus = .fails
  · have hout : recorded w o (.setFailed certID jobID cause) = none :=
      if_neg fun h => h.2 ho
    refine (Prog.wp_call_fails ho).mpr ?_
    rw [hout]
    exact rowsStep_of_eq rfl
  have hshows : ∀ c : Certificate, Shows { c with
      status := lit "failed", lastError := some (env.errorText cause) } none :=
    fun c => by show lit "failed" ≠ statusValid; decide
  by_cases hrow : (w.certificates.find? certID).isSome = true
  · have hout : recorded w o (.setFailed certID jobID cause) =
        some (certID, none) := if_pos ⟨hrow, ho⟩
    have hupdate := rowsStep_updateWhere hrow (fun c => { c with
      status := lit "failed", lastError := some (env.errorText cause) })
      (fun _ => rfl) hshows
    rw [hout]
    exact Prog.wp_call_of hupdate (fun h => absurd h ho) fun _ => hupdate
  · have hout : recorded w o (.setFailed certID jobID cause) = none :=
      if_neg fun h => hrow h.1
    have hgone : ∀ c ∈ w.certificates.rows, c.id ≠ certID := by
      have hnone := Option.not_isSome_iff_eq_none.mp hrow
      exact Table.find?_eq_none.mp hnone
    have hkept : RowsStep w { w with
        certificates := w.certificates.updateWhere (fun c => c.id == certID)
          (fun c => { c with
            status := lit "failed", lastError := some (env.errorText cause) })
          fun _ => rfl } none := by
      refine .kept le_rfl fun c' hc' => .inl ?_
      obtain ⟨c, hc, rfl⟩ := List.mem_map.mp hc'
      rw [if_neg (by simpa using hgone c hc)]
      exact hc
    rw [hout]
    exact Prog.wp_call_of hkept (fun _ => rowsStep_of_eq rfl) fun _ => hkept

/-- `CreateCertificate`: the new row is pending. -/
theorem createCertificate_step (recordID : Int) (domains : GoString) :
    (createCertificate recordID domains "pending").wp o ⟨w, 0⟩ fun _ t =>
      RowsStep w t.state none := by
  refine Prog.wp_mono (createCertificate_spec o recordID domains _ ⟨w, 0⟩) ?_
  rintro r ⟨w', n⟩ ⟨hcreated, -⟩
  cases hcreated with
  | kept => exact rowsStep_of_eq rfl
  | burned => exact .kept (Int.le_add_one le_rfl) fun _ hc => .inl hc
  | inserted =>
      refine .kept (Int.le_add_one le_rfl) fun c hc => ?_
      rcases List.mem_append.mp hc with hold | hnew
      · exact .inl hold
      · obtain rfl := List.mem_singleton.mp hnew
        exact .inr ⟨le_rfl, by show lit "pending" ≠ statusValid; decide⟩

/-- A statement of `ensureCertificateRow`. -/
theorem ensure_step (record : Record) (e : Ensure) :
    (e.next record).wp o ⟨w, 0⟩ fun _ t => RowsStep w t.state none := by
  cases e with
  | find =>
      have hkeeps : Prog.Keeps o RowsKept (Ensure.find.next record) := by
        refine .bind RowsKept.trans (.attempt (.query RowsKept.refl))
          fun r => ?_
        split
        · exact .pure RowsKept.refl _
        · exact .pure RowsKept.refl _
        · exact .pure RowsKept.refl _
      exact Prog.wp_mono (hkeeps ⟨w, 0⟩) fun _ _ h => rowsStep_of_eq h
  | create =>
      refine (Prog.wp_bind _ _ _).mpr ((Prog.wp_attempt _ _).mpr
        ((Prog.wp_mapError _ _ _).mpr (Prog.wp_mono
          (createCertificate_step record.id _) ?_)))
      exact fun _ _ h => h

/-- A stage beside the rows records nothing. -/
theorem recorded_of_beside (w : World) (o : Oracle Call) {st : Stage}
    (h : Beside st) : recorded w o st = none := by
  cases st with
  | update certID jobID p => exact h.elim
  | setFailed certID jobID cause => exact h.elim
  | _ => rfl

/-- **What a stage does to status and expiry**, whatever goes wrong. -/
theorem stage_step (env : Env) (record : Record) (source : IssuanceSource)
    {st : Stage} (hgood : GoodStage st) :
    (st.next env record source).wp o ⟨w, 0⟩ fun r t => ∀ st', r = .ok st' →
      RowsStep w t.state (recorded w o st) ∧ GoodStage st' := by
  have hbeside : Beside st → (st.next env record source).wp o ⟨w, 0⟩
      fun r t => ∀ st', r = .ok st' →
        RowsStep w t.state (recorded w o st) ∧ GoodStage st' := by
    intro hst
    refine Prog.wp_mono (stage_beside env record source hst) ?_
    intro r t h st' hr
    obtain ⟨hrows, hon⟩ := h st' hr
    rw [recorded_of_beside w o hst]
    refine ⟨rowsStep_of_eq hrows, ?_⟩
    cases st' with
    | update certID jobID p => exact hon.issued certID jobID p rfl
    | _ => trivial
  cases st with
  | ensure e =>
      refine (Prog.wp_bind _ _ _).mpr (Prog.wp_mono (ensure_step record e) ?_)
      rintro (err | e' | err | certID) t ht st' hst'
      · cases hst'
      · cases hst'
        exact ⟨ht, trivial⟩
      · cases hst'
        exact ⟨ht, trivial⟩
      · cases hst'
        exact ⟨ht, trivial⟩
  | update certID jobID p =>
      refine (Prog.wp_bind _ _ _).mpr ((Prog.wp_attempt _ _).mpr
        ((Prog.wp_mapError _ _ _).mpr (Prog.wp_mono
          (updateCertificate_step jobID hgood) ?_)))
      rintro (err | _) t ht st' hst'
      · cases hst'
        exact ⟨ht, trivial⟩
      · cases hst'
        exact ⟨ht, trivial⟩
  | setFailed certID jobID cause =>
      refine (Prog.wp_bind _ _ _).mpr (Prog.wp_mono
        (setCertificateFailed_step env jobID cause) ?_)
      rintro (err | _) t ht st' hst'
      · cases hst'
      · cases hst'
        exact ⟨ht, trivial⟩
  | _ => exact hbeside trivial

end Stages

/-! ## What a statement of a call does -/

/-- A foreground issuance stores nothing but what it has got. -/
def GoodPc (pc : Pc) : Prop := ∀ st ∈ stageOf pc, GoodStage st

theorem goodPc_of_none {pc : Pc} (h : stageOf pc = none) : GoodPc pc := by
  intro st hst
  rw [h] at hst
  cases hst

theorem goodPc_of_atFirst {pc : Pc} (h : AtFirst pc) : GoodPc pc := by
  cases pc with
  | issuing record source st k =>
      obtain rfl := show st = .first from h
      intro st hst
      obtain rfl := Option.some.inj hst
      trivial
  | _ => exact goodPc_of_none rfl

section Calls

variable {o : Oracle Call} {w : World} {pc : Pc}

/-- The statement of `pc`, if there is one, does to the rows what it
records. -/
def StepsRows (o : Oracle Call) (w : World) (pc : Pc)
    (p : Handler (Pc × Option Record)) : Prop :=
  p.wp o ⟨w, 0⟩ fun r t => ∀ x, r = .ok x →
    RowsStep w t.state ((stageOf pc).bind (recorded w o)) ∧ GoodPc x.1

/-- A statement of the preparation of `StartIssuance`. -/
private theorem stepsRows_prepare (env : Env) (record : Record) (e : Ensure)
    (k : After) :
    StepsRows o w (.prepare record e k) ((Pc.prepare record e k).next env) := by
  refine Prog.wp_bind_of (ensure_step record e)
    (fun err t _ x hx => nomatch hx) ?_
  rintro (e' | err | certID) t ht x hx
  · cases hx
    exact ⟨ht, goodPc_of_none rfl⟩
  · cases hx
    exact ⟨ht, goodPc_of_none rfl⟩
  · cases hx
    have hlogged : RowsStep w (t.state.log (.startIssuance record)) none := by
      cases ht with
      | kept hnext hrows => exact .kept hnext hrows
    exact ⟨hlogged, goodPc_of_atFirst (atFirst_after _ k)⟩

/-- A statement of an issuance the caller waits for. -/
private theorem stepsRows_issuing (env : Env) (record : Record)
    (source : IssuanceSource) {st : Stage} (k : Return)
    (hrunning : ∀ r, st ≠ .ended r) (hgood : GoodStage st) :
    StepsRows o w (.issuing record source st k)
      ((Pc.issuing record source st k).next env) := by
  rw [next_issuing env record source k hrunning]
  refine (Prog.wp_bind _ _ _).mpr (Prog.wp_mono
    (stage_step env record source hgood) ?_)
  rintro (err | st') t ht x hx
  · cases hx
  · obtain ⟨hrows, hgood'⟩ := ht st' rfl
    cases hx
    refine ⟨hrows, fun st hst => ?_⟩
    obtain rfl := Option.some.inj hst
    exact hgood'

/-- Outside of an issuance nothing is recorded. -/
theorem recorded_of_outside (w : World) (o : Oracle Call) {pc : Pc}
    (h : Outside pc) : (stageOf pc).bind (recorded w o) = none := by
  cases pc with
  | issuing record source st k =>
      obtain ⟨r, rfl⟩ := h
      rfl
  | _ => rfl

/-- **Every statement of the main flow.** -/
theorem next_step (env : Env) (hgood : GoodPc pc) :
    StepsRows o w pc (pc.next env) := by
  rcases outside_or pc with hpc | ⟨record, e, k, rfl⟩ |
    ⟨record, source, st, k, rfl, hrunning⟩
  · refine Prog.wp_mono (next_outside env hpc) ?_
    rintro r t h x rfl
    obtain ⟨hrows, -, hfirst⟩ := h x rfl
    rw [recorded_of_outside w o hpc]
    exact ⟨rowsStep_of_eq hrows, goodPc_of_atFirst hfirst⟩
  · exact stepsRows_prepare env record e k
  · exact stepsRows_issuing env record source k hrunning (hgood st rfl)

end Calls

/-! ## What a statement of a thread does -/

/-- The issuances of a thread store nothing but what they have got. -/
structure GoodThread (t : Thread) : Prop where
  main : GoodPc t.main
  background : ∀ b ∈ t.background, GoodStage b.2

section Threads

variable {o : Oracle Call} {w : World} {t : Thread}

theorem mainStep_step (env : Env) (hgood : GoodThread t) :
    (t.mainStep env).wp o ⟨w, 0⟩ fun r sys => ∀ t', r = .ok t' →
      RowsStep w sys.state ((stageOf t.main).bind (recorded w o)) ∧
        GoodThread t' := by
  refine Prog.wp_bind_of (next_step env hgood.main)
    (fun err sys _ t' ht' => nomatch ht') ?_
  rintro ⟨pc', spawned⟩ sys hstep t' ht'
  obtain ⟨hrows, hpc'⟩ := hstep _ rfl
  cases spawned with
  | none =>
      obtain rfl : ⟨pc', t.background⟩ = t' := Except.ok.inj ht'
      exact ⟨hrows, hpc', hgood.background⟩
  | some record =>
      obtain rfl : ⟨pc', some (record, .first)⟩ = t' := Except.ok.inj ht'
      refine ⟨hrows, hpc', fun b hb => ?_⟩
      obtain rfl := Option.some.inj hb
      trivial

theorem backgroundStep_step (env : Env) (hgood : GoodThread t) :
    (t.backgroundStep env).wp o ⟨w, 0⟩ fun r sys => ∀ t', r = .ok t' →
      RowsStep w sys.state (t.background.bind fun b => recorded w o b.2) ∧
        GoodThread t' := by
  obtain ⟨pc, background⟩ := t
  cases background with
  | none => exact fun t' ht' => nomatch ht'
  | some b =>
      obtain ⟨record, st⟩ := b
      refine wp_backgroundStep env ?_ ?_
      · rintro r rfl
        refine ⟨rowsStep_of_eq rfl, hgood.main, fun b hb => ?_⟩
        cases hb
      · refine Prog.wp_mono
          (stage_step env record _ (hgood.background _ rfl)) ?_
        intro r sys hstep st' hr
        obtain ⟨hrows, hgood'⟩ := hstep st' hr
        refine ⟨hrows, hgood.main, fun b hb => ?_⟩
        obtain rfl := Option.some.inj hb
        exact hgood'

end Threads

/-! ## Runs -/

/-- The rows say what the recorded attempts have come to. -/
structure Known (s : Watch) : Prop where
  rows : ∀ c ∈ s.calls.world.certificates.rows, Shows c (s.obtained c.id)
  fresh : ∀ id, s.calls.world.certificates.next ≤ id → s.obtained id = none
  threads : ∀ i, GoodThread (s.calls.threads i)

theorem known_start (zones : Zones) (clock : Int) :
    Known (Watch.start zones clock) where
  rows := fun c hc => by cases hc
  fresh := fun _ _ => rfl
  threads := fun _ => ⟨goodPc_of_none rfl, fun b hb => by cases hb⟩

theorem withOutcome_self (obtained : Int → Option Int) (id : Int)
    (e : Option Int) : withOutcome obtained (some (id, e)) id = e := if_pos rfl

theorem withOutcome_ne {obtained : Int → Option Int} {id i : Int}
    {e : Option Int} (h : i ≠ id) :
    withOutcome obtained (some (id, e)) i = obtained i := if_neg h

/-- What a statement records is in the rows. -/
theorem Known.rows_step {s : Watch} (h : Known s) {w : World}
    {out : Option (Int × Option Int)} (hstep : RowsStep s.calls.world w out) :
    (∀ c ∈ w.certificates.rows, Shows c (withOutcome s.obtained out c.id)) ∧
      ∀ id, w.certificates.next ≤ id →
        withOutcome s.obtained out id = none := by
  cases hstep with
  | kept hnext hrows =>
      refine ⟨fun c hc => ?_, fun id hid => h.fresh id (hnext.trans hid)⟩
      rcases hrows c hc with hold | ⟨hnew, hstatus⟩
      · exact h.rows c hold
      · show Shows c (s.obtained c.id)
        rw [h.fresh c.id hnew]
        exact hstatus
  | recorded id e hid hnext hmem hrows =>
      refine ⟨fun c hc => ?_, fun i hi => ?_⟩
      · rcases hrows c hc with ⟨hne, hold⟩ | ⟨rfl, hshows⟩
        · rw [withOutcome_ne hne]
          exact h.rows c hold
        · rw [withOutcome_self]
          exact hshows
      · rw [withOutcome_ne (by omega)]
        exact h.fresh i (hnext.trans hi)

/-- What the statement of a label does to the rows. -/
theorem call_step {s : Watch} {a : Label} {calls : State} (h : Known s)
    (hcalm : Admitted s a) (hcalls : issuances.step s.calls a = some calls) :
    RowsStep s.calls.world calls.world (recordedBy s.calls a) ∧
      ∀ i, GoodThread (calls.threads i) := by
  cases a with
  | call i e =>
      simp only [issuances] at hcalls
      split at hcalls
      · next hidle =>
        obtain rfl := Option.some.inj hcalls
        refine ⟨rowsStep_of_eq rfl, ?_⟩
        refine (Pool.forall_set (P := fun _ t => GoodThread t) _ i _).mpr
          ⟨⟨goodPc_of_none ?_, (h.threads i).background⟩,
            fun j _ => h.threads j⟩
        cases e <;> rfl
      · cases hcalls
  | main i env o =>
      obtain ⟨t, ht, rfl⟩ := carryOut_eq_some hcalls
      obtain ⟨hrows, hgood⟩ := mainStep_step env (h.threads i) t ht
      exact ⟨hrows, (Pool.forall_set (P := fun _ t => GoodThread t) _ i t).mpr
        ⟨hgood, fun j _ => h.threads j⟩⟩
  | background i env o =>
      obtain ⟨t, ht, rfl⟩ := carryOut_eq_some hcalls
      obtain ⟨hrows, hgood⟩ := backgroundStep_step env (h.threads i) t ht
      exact ⟨hrows, (Pool.forall_set (P := fun _ t => GoodThread t) _ i t).mpr
        ⟨hgood, fun j _ => h.threads j⟩⟩
  | others w =>
      obtain rfl := Option.some.inj hcalls
      exact ⟨.kept hcalm.1 fun c hc => .inl (hcalm.2 c hc), h.threads⟩

/-- **What a step does**: a statement does to the rows what it records, or time
passes. -/
theorem timed_cases {s s' : Watch} {a : Step} (h : Known s)
    (hstep : timed.step s a = some s') :
    (∃ l, a = .call l ∧ s'.clock = s.clock ∧
        s'.obtained = withOutcome s.obtained (recordedBy s.calls l) ∧
        RowsStep s.calls.world s'.calls.world (recordedBy s.calls l) ∧
        ∀ i, GoodThread (s'.calls.threads i)) ∨
      ∃ t, a = .pass t ∧ s.clock ≤ t ∧ s' = { s with clock := t } := by
  cases a with
  | call l =>
      simp only [timed] at hstep
      split at hstep
      · next hcalm =>
        obtain ⟨calls, hcalls, rfl⟩ := Option.map_eq_some_iff.mp hstep
        obtain ⟨hrows, hgood⟩ := call_step h hcalm hcalls
        exact .inl ⟨l, rfl, rfl, rfl, hrows, hgood⟩
      · cases hstep
  | pass t =>
      simp only [timed] at hstep
      split at hstep
      · next hle =>
        obtain rfl := Option.some.inj hstep
        exact .inr ⟨t, rfl, hle, rfl⟩
      · cases hstep

/-- **Step lemma.** -/
theorem known_step (s : Watch) (a : Step) (s' : Watch) (h : Known s)
    (hstep : timed.step s a = some s') : Known s' := by
  rcases timed_cases h hstep with ⟨l, -, -, hout, hrows, hgood⟩ |
    ⟨t, -, -, rfl⟩
  · obtain ⟨hshows, hfresh⟩ := h.rows_step hrows
    exact ⟨hout ▸ hshows, hout ▸ hfresh, hgood⟩
  · exact ⟨h.rows, h.fresh, h.threads⟩

/-! ## Expiries in time -/

/-- The last recorded attempt of no row has obtained a certificate that has
expired. -/
def Timely (s : Watch) : Prop :=
  ∀ c ∈ s.calls.world.certificates.rows, ∀ e ∈ s.obtained c.id, s.clock ≤ e

/-- **The condition.**  The clock passes the expiry of a certificate only when
a later attempt has been recorded in its row, or the row has gone; and no
certificate that has expired already is stored. -/
def InTime (s : Watch) : Step → Prop
  | .pass t => ∀ c ∈ s.calls.world.certificates.rows,
      ∀ e ∈ s.obtained c.id, t ≤ e
  | .call a => ∀ id e, recordedBy s.calls a = some (id, some e) → s.clock ≤ e

theorem timely_step {s s' : Watch} {a : Step} (h : Known s) (htimely : Timely s)
    (hcond : InTime s a) (hstep : timed.step s a = some s') : Timely s' := by
  rcases timed_cases h hstep with ⟨l, rfl, hclock, hout, hrows, -⟩ |
    ⟨t, rfl, -, rfl⟩
  · intro c hc e he
    rw [hclock]
    rw [hout] at he
    generalize hrecorded : recordedBy s.calls l = out at hrows he
    cases hrows with
    | kept hnext hrows =>
        rcases hrows c hc with hold | ⟨hnew, -⟩
        · exact htimely c hold e he
        · have hnone : s.obtained c.id = none := h.fresh c.id hnew
          exact absurd (hnone.symm.trans he) nofun
    | recorded id out hid hnext hmem hrows =>
        rcases hrows c hc with ⟨hne, hold⟩ | ⟨rfl, -⟩
        · rw [withOutcome_ne hne] at he
          exact htimely c hold e he
        · rw [withOutcome_self] at he
          exact hcond c.id e (hrecorded.trans (by rw [Option.mem_def.mp he]))
  · exact hcond

/-- **The other way.**  A step after which no expiry has passed was in time. -/
theorem inTime_of_timely {s s' : Watch} {a : Step} (h : Known s)
    (hstep : timed.step s a = some s') (htimely : Timely s') :
    InTime s a := by
  rcases timed_cases h hstep with ⟨l, rfl, hclock, hout, hrows, -⟩ |
    ⟨t, rfl, -, rfl⟩
  · intro id e hrecorded
    rw [hrecorded] at hrows hout
    cases hrows with
    | recorded _ _ _ _ hmem _ =>
        obtain ⟨c, hc, rfl⟩ := hmem
        have hobtained : s'.obtained c.id = some e := by
          rw [hout, withOutcome_self]
        exact hclock ▸ htimely c hc e hobtained
  · exact htimely

/-! ## Reports -/

/-- A certificate shown to a client is not expired if it is shown as valid. -/
def Fresh (now : Int) (p : CertificateProto) : Prop :=
  p.status = statusValid → unixMilli now ≤ p.notAfter

/-- An entry of a refresh report that says `valid` is made from a row that has
not expired. -/
def FreshEntry (env : Env) (w : World) (now : Int)
    (entry : CertificateStatus) : Prop :=
  entry.status = statusValid → ∃ c ∈ w.certificates.rows, ∃ e,
    c.notAfter = some e ∧ entry.notAfter = env.formatDate e ∧ now ≤ e

/-- Every report that is made now tells the truth: no expired certificate is
reported as valid. -/
structure FreshReports (s : Watch) : Prop where
  certificates : ∀ o, getCertificates.wpOk o ⟨s.calls.world, 0⟩
    fun ps _ => ∀ p ∈ ps, Fresh s.clock p
  records : ∀ env like search o,
    (getRecords env like search).wpOk o ⟨s.calls.world, 0⟩
      fun rs _ => ∀ r ∈ rs, ∀ p ∈ r.certificate, Fresh s.clock p
  details : ∀ env recordID o,
    (getCertificateDetails env recordID).wpOk o ⟨s.calls.world, 0⟩
      fun details _ => ∀ p ∈ details.certificate, Fresh s.clock p
  /-- An entry of a report that is being made. -/
  entries : ∀ env o report record,
    (certificateOne env report record).wpOk o ⟨s.calls.world, 0⟩
      fun report' _ => ∀ entry ∈ report'.certificates,
        entry ∈ report.certificates ∨
          FreshEntry env s.calls.world s.clock entry

/-- A row that says `valid` has an expiry that lies ahead. -/
theorem notAfter_of_valid {s : Watch} (h : Known s) (htimely : Timely s)
    {c : Certificate} (hc : c ∈ s.calls.world.certificates.rows)
    (hvalid : c.status = statusValid) :
    ∃ e, c.notAfter = some e ∧ s.clock ≤ e := by
  have hshows := h.rows c hc
  cases hobtained : s.obtained c.id with
  | none =>
      rw [hobtained] at hshows
      exact absurd hvalid hshows
  | some e =>
      rw [hobtained] at hshows
      exact ⟨e, hshows.2, htimely c hc e hobtained⟩

theorem fresh_of_stored {s : Watch} (h : Known s) (htimely : Timely s)
    {p : CertificateProto} (hp : Stored s.calls.world p) : Fresh s.clock p := by
  obtain ⟨c, hc, rfl⟩ := hp
  intro hvalid
  obtain ⟨e, he, hle⟩ := notAfter_of_valid h htimely hc hvalid
  show s.clock * 1000 ≤ c.notAfter.elim 0 fun t => t * 1000
  rw [he]
  show s.clock * 1000 ≤ e * 1000
  omega

/-- The entry of a record is made from its row, or says nothing. -/
theorem freshEntry_of_scanned {s : Watch} (h : Known s) (htimely : Timely s)
    (env : Env) (o : Oracle Call) (n : Nat) (r : Record) :
    FreshEntry env s.calls.world s.clock
      (RefreshReports.shown env r
        (RefreshReports.scanned o s.calls.world n r)) := by
  intro hvalid
  unfold RefreshReports.scanned at hvalid ⊢
  have hzero : (RefreshReports.shown env r Certificate.zero).status ≠
      statusValid := by
    show ([] : GoString) ≠ statusValid
    decide
  by_cases ho : o n .getCertificateByRecord = .none
  · rw [if_pos ho] at hvalid ⊢
    cases hrow : certificateOf s.calls.world r.id with
    | none =>
        rw [hrow] at hvalid
        exact absurd hvalid hzero
    | some c =>
        rw [hrow] at hvalid
        have hmem := (certificateOf_spec hrow).1
        obtain ⟨e, he, hle⟩ := notAfter_of_valid h htimely hmem hvalid
        refine ⟨c, hmem, e, he, ?_, hle⟩
        show c.notAfter.elim [] env.formatDate = _
        rw [he]
        rfl
  · rw [if_neg ho] at hvalid
    exact absurd hvalid hzero

theorem freshReports_of_timely {s : Watch} (h : Known s)
    (htimely : Timely s) : FreshReports s where
  certificates := fun o => Prog.wpOk_mono getCertificates_shows
    fun _ _ hshows p hp => fresh_of_stored h htimely (hshows p hp)
  records := fun env like search o =>
    Prog.wpOk_mono (getRecords_shows env like search)
      fun _ _ hshows r hr p hp => fresh_of_stored h htimely (hshows r hr p hp)
  details := fun env recordID o =>
    Prog.wpOk_mono (getCertificateDetails_shows env recordID)
      fun _ _ hshows p hp => fresh_of_stored h htimely (hshows p hp)
  entries := by
    intro env o report record report' t hrun
    by_cases hcert : recordDoesCert record.purpose = true
    · rw [RefreshReports.certificateOne_eq env o report hcert] at hrun
      obtain ⟨hreport, -⟩ := Prod.mk.inj hrun
      obtain rfl := Except.ok.inj hreport
      intro entry hentry
      rcases List.mem_append.mp hentry with hold | hnew
      · exact .inl hold
      · obtain rfl := List.mem_singleton.mp hnew
        exact .inr (freshEntry_of_scanned h htimely env o 0 record)
    · have hsame : certificateOne env report record = pure report :=
        if_neg hcert
      rw [hsame] at hrun
      obtain ⟨hreport, -⟩ := Prod.mk.inj hrun
      obtain rfl := Except.ok.inj hreport
      exact fun entry hentry => .inl hentry

/-- The list of certificates shows every row. -/
theorem timely_of_freshReports {s : Watch} (h : Known s)
    (hfresh : FreshReports s) : Timely s := by
  intro c hc e he
  have hshows := h.rows c hc
  rw [Option.mem_def.mp he] at hshows
  have hlist := hfresh.certificates .quiet _ _
    (getCertificates_quiet ⟨s.calls.world, 0⟩)
  have hproto := hlist (certificateToProto c)
    (List.mem_map_of_mem (List.mem_reverse.mpr hc)) hshows.1
  change s.clock * 1000 ≤ c.notAfter.elim 0 fun t => t * 1000 at hproto
  rw [hshows.2] at hproto
  change s.clock * 1000 ≤ e * 1000 at hproto
  omega

/-- **No expired certificate is reported as valid**, in every state of a run
and in every report made there, if and only if every step of the run is in
time. -/
theorem valid_reports_are_fresh_iff (zones : Zones) (clock : Int)
    (as : List Step) :
    timed.Along (fun s a => ∀ s', timed.step s a = some s' → FreshReports s')
        (Watch.start zones clock) as ↔
      timed.Along (fun s a => (timed.step s a).isSome = true → InTime s a)
        (Watch.start zones clock) as := by
  have hstart := known_start zones clock
  constructor
  · intro hfresh
    have hknown := timed.along_invariant
      (fun s a s' h _ hstep => known_step s a s' h hstep) as
      (Watch.start zones clock) hstart hfresh
    refine timed.along_mono (fun s a ⟨h, hreports⟩ hsome => ?_) as _ hknown
    obtain ⟨s', hstep⟩ := Option.isSome_iff_exists.mp hsome
    exact inTime_of_timely h hstep (timely_of_freshReports
      (known_step s a s' h hstep) (hreports s' hstep))
  · intro hcond
    have hstep : ∀ s a s', Known s ∧ Timely s →
        ((timed.step s a).isSome = true → InTime s a) →
        timed.step s a = some s' → Known s' ∧ Timely s' := by
      rintro s a s' ⟨h, htimely⟩ hin hs
      exact ⟨known_step s a s' h hs,
        timely_step h htimely (hin (by rw [hs]; rfl)) hs⟩
    have hinv := timed.along_invariant hstep as (Watch.start zones clock)
      ⟨hstart, fun c hc => by cases hc⟩ hcond
    refine timed.along_mono (fun s a ⟨hs, hin⟩ s' hs' => ?_) as _ hinv
    obtain ⟨hknown, htimely⟩ := hstep s a s' hs hin hs'
    exact freshReports_of_timely hknown htimely

private def acmeOn : Env := { Env.sample with acmeEnabled := true }

private def www : RecordInput :=
  ⟨0, "token", 7, "example.org", "www", 60, 2, false, []⟩

/-- A record is saved, and its certificate issued in the background. -/
private def issued : List Step :=
  (.call 0 (.upsertRecord www) ::
    (List.replicate 10 (Label.main 0 acmeOn .quiet) ++
      List.replicate 8 (Label.background 0 acmeOn .quiet))).map .call

/-- ACME is switched off, the expiry passes, and a renewal scan does
nothing. -/
private def expired : List Step :=
  [.pass 8000000, .call (.call 1 .renewCertificates),
    .call (.main 1 { Env.sample with now := 8000000 } .quiet)]

/-- The certificate has expired and is still reported as valid. -/
theorem expired_certificate_reported_valid :
    ∃ s, timed.run (Watch.start (fun _ _ => none) 0) (issued ++ expired) =
        some s ∧
      (∃ p, getCertificates .quiet ⟨s.calls.world, 0⟩ =
          (.ok [p], ⟨s.calls.world, 1⟩) ∧
        p.status = statusValid ∧ p.notAfter < unixMilli s.clock) ∧
      ¬FreshReports s := by
  obtain ⟨s, hrun⟩ := Option.isSome_iff_exists.mp
    (show (timed.run (Watch.start (fun _ _ => none) 0)
      (issued ++ expired)).isSome = true by decide +kernel)
  have hend : ∀ s ∈ timed.run (Watch.start (fun _ _ => none) 0)
      (issued ++ expired), s.clock = 8000000 ∧
        s.calls.world.certificates.rows.map (fun c =>
          (c.status, c.notAfter)) = [(statusValid, some 7776000)] := by
    decide +kernel
  obtain ⟨hclock, hrows⟩ := hend s hrun
  obtain ⟨c, hone, hc⟩ := List.map_eq_singleton_iff.mp hrows
  obtain ⟨hstatus, hnotAfter⟩ := Prod.mk.inj hc
  have hlist := getCertificates_quiet ⟨s.calls.world, 0⟩
  have hlate : (certificateToProto c).notAfter < unixMilli s.clock := by
    show (c.notAfter.elim 0 fun t => t * 1000) < s.clock * 1000
    rw [hnotAfter, hclock]
    decide
  rw [show (⟨s.calls.world, 0⟩ : Sys World).state.certificates.rows = [c] from
    hone] at hlist
  refine ⟨s, hrun, ⟨certificateToProto c, hlist, hstatus, hlate⟩, ?_⟩
  intro hfresh
  have hproto := hfresh.certificates .quiet _ _ hlist (certificateToProto c)
    List.mem_cons_self hstatus
  omega

end Hdns.Ports.ExpiredStatus

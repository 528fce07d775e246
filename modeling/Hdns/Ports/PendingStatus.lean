import Hdns.Ports.CertificateEdits

/-!
# The status of a certificate while it is issued

`StartIssuance` makes sure that the record has a certificate row "so the UI
immediately reflects the pending state", and leaves the issuance to a
background goroutine.  `ensureCertificateRow` gives only a new row the status
`pending`: a row that an earlier issuance has left keeps its status until the
background issuance stores its outcome.

The machine is that of `Issuances`, watched for the steps by which a background
issuance changes its row.

## Main results

* `stage_rows`, `next_rows` — a statement changes the certificate row of no
  other record than the one whose slot its call holds.
* `started_issuance_shows_pending_iff` — every started issuance shows as pending
  until it stores its outcome if and only if no `StartIssuance` finds a row
  with another status, and none of their rows is deleted.
-/

namespace Hdns.Ports.PendingStatus

open Hdns.Verified
open Hdns.Verified.GoString
open Hdns.Ports.Schema
open Hdns.Ports.Tasks
open Hdns.Ports.Service
open Hdns.Ports.Records
open Hdns.Ports.Certificates
open Hdns.Ports.IssuanceSteps
open Hdns.Ports.Issuances
open Hdns.Ports.CertificateEdits

def statusPending : GoString := "pending"

/-! ## The watched machine -/

/-- The concurrent calls, and for each thread whether its background issuance
has changed the certificate row of its record. -/
structure Watch where
  calls : State
  stored : Nat → Bool

/-- Before any call. -/
def Watch.start (w : World) : Watch := ⟨Issuances.start w, fun _ => false⟩

/-- The certificate row of the record a background goroutine works on. -/
def State.row (s : State) (t : Thread) : Option Certificate :=
  t.background.bind fun b => certificateOf s.world b.1.id

/-- What is known of the background issuances after a step to `calls`. -/
def Watch.storedAfter (s : Watch) (a : Label) (calls : State) (i : Nat) :
    Bool :=
  match a with
  | .main j _ _ =>
      if i = j ∧ (s.calls.threads j).background.isNone then false
      else s.stored i
  | .background j _ _ =>
      s.stored i || (i == j &&
        State.row calls (s.calls.threads j) !=
          State.row s.calls (s.calls.threads j))
  | _ => s.stored i

/-- The machine of `Issuances`, watched. -/
def watched : Machine Watch Label where
  step s a := (issuances.step s.calls a).map fun calls =>
    ⟨calls, s.storedAfter a calls⟩

/-- The row of the record is there and pending. -/
def Pending (w : World) (recordID : Int) : Prop :=
  ∃ c, certificateOf w recordID = some c ∧ c.status = statusPending

/-- The record of a background issuance that has not changed its row is
pending. -/
def Shown (s : Watch) : Prop :=
  ∀ i record st, (s.calls.threads i).background = some (record, st) →
    s.stored i = false → Pending s.calls.world record.id

/-- Calls outside the model do no more to the certificate rows than to delete
some of them, as a deletion of their record does. -/
def Undisturbed (s : Watch) : Label → Prop
  | .others w =>
      w.certificates.next = s.calls.world.certificates.next ∧
        ∀ c ∈ w.certificates.rows, c ∈ s.calls.world.certificates.rows
  | _ => True

/-- **The condition.**  When a `StartIssuance` reads the row of its record, it
finds none, or a pending one; and no row that a started issuance still has to
change is deleted. -/
def Clear (s : Watch) : Label → Prop
  | .main i _ o =>
      match (s.calls.threads i).main with
      | .prepare record .find _ => o 0 .getCertificateByRecord = .none →
          ∀ c ∈ certificateOf s.calls.world record.id, c.status = statusPending
      | _ => True
  | .others w => ∀ i record st,
      (s.calls.threads i).background = some (record, st) →
        s.stored i = false → Pending s.calls.world record.id →
          Pending w record.id
  | _ => True

/-! ## The certificate rows a statement can change -/

/-- A row that was there has kept its id and its record. -/
structure Grows (w w' : World) : Prop where
  next : w.certificates.next ≤ w'.certificates.next
  rows : ∀ c' ∈ w'.certificates.rows, c'.id < w.certificates.next →
    ∃ c ∈ w.certificates.rows, c.id = c'.id ∧ c.recordID = c'.recordID

theorem Grows.refl (w : World) : Grows w w :=
  ⟨le_rfl, fun c hc _ => ⟨c, hc, rfl, rfl⟩⟩

theorem grows_of_subset {w w' : World}
    (hnext : w.certificates.next ≤ w'.certificates.next)
    (h : ∀ c ∈ w'.certificates.rows, c ∈ w.certificates.rows) : Grows w w' :=
  ⟨hnext, fun c hc _ => ⟨c, h c hc, rfl, rfl⟩⟩

theorem grows_of_eq {w w' : World} (h : w'.certificates = w.certificates) :
    Grows w w' :=
  grows_of_subset (by rw [h]) fun c hc => h ▸ hc

/-- The certificate row an issuance works on, as long as there is one, is its
record's. -/
structure Owns (w : World) (record : Record) (certID : Int) : Prop where
  known : certID < w.certificates.next
  own : ∀ c ∈ w.certificates.rows, c.id = certID → c.recordID = record.id

theorem Owns.grows {w w' : World} {record : Record} {certID : Int}
    (h : Owns w record certID) (hgrows : Grows w w') :
    Owns w' record certID := by
  refine ⟨lt_of_lt_of_le h.known hgrows.next, fun c' hc' hid' => ?_⟩
  obtain ⟨c, hc, hid, hrecord⟩ := hgrows.rows c' hc' (hid' ▸ h.known)
  exact hrecord.symm.trans (h.own c hc (hid.trans hid'))

theorem owns_of_certificateOf {w : World} {record : Record} {c : Certificate}
    (h : certificateOf w record.id = some c) : Owns w record c.id := by
  obtain ⟨hc, hrecord⟩ := certificateOf_spec h
  refine ⟨w.certificates.fresh c hc, fun c' hc' hid => ?_⟩
  obtain rfl : c' = c :=
    List.inj_on_of_nodup_map w.certificates.distinct hc' hc hid
  exact hrecord

/-- The id of the certificate row a stage works on. -/
def Stage.certID : Stage → Option Int
  | .createJob certID => some certID
  | .obtain certID _ => some certID
  | .files certID _ _ => some certID
  | .update certID _ _ => some certID
  | .setFailed certID _ _ => some certID
  | _ => none

/-- A stage works on the row of its record. -/
def OwnStage (w : World) (record : Record) (st : Stage) : Prop :=
  ∀ certID ∈ Stage.certID st, Owns w record certID

theorem OwnStage.grows {w w' : World} {record : Record} {st : Stage}
    (h : OwnStage w record st) (hgrows : Grows w w') : OwnStage w' record st :=
  fun certID hcert => (h certID hcert).grows hgrows

/-- What a statement that works on the row of `recordID` does to the rows. -/
structure RowStep (recordID : Int) (w w' : World) : Prop where
  grows : Grows w w'
  others : ∀ id, id ≠ recordID → certificateOf w' id = certificateOf w id

theorem rowStep_of_eq {recordID : Int} {w w' : World}
    (h : w'.certificates = w.certificates) : RowStep recordID w w' :=
  ⟨grows_of_eq h, fun id _ => by rw [certificateOf, certificateOf, h]⟩

/-- A change of the row `certID`, which belongs to the record. -/
theorem rowStep_updateWhere {record : Record} {certID : Int} {w : World}
    (hown : Owns w record certID) (f : Certificate → Certificate)
    (hid : ∀ c, (f c).id = c.id) (hrecord : ∀ c, (f c).recordID = c.recordID) :
    RowStep record.id w { w with
      certificates := w.certificates.updateWhere (fun c => c.id == certID) f
        hid } := by
  refine ⟨⟨le_rfl, fun c' hc' _ => ?_⟩, fun id hne => ?_⟩
  · obtain ⟨c, hc, rfl⟩ := List.mem_map.mp hc'
    refine ⟨c, hc, ?_⟩
    split
    · exact ⟨(hid c).symm, (hrecord c).symm⟩
    · exact ⟨rfl, rfl⟩
  · have hfind := w.certificates.rows_find?_updateWhere
      (fun c => c.id == certID) f hid (q := fun c => c.recordID == id)
      fun c => by rw [hrecord]
    refine hfind.trans ?_
    change (certificateOf w id).map _ = certificateOf w id
    cases hc : certificateOf w id with
    | none => rfl
    | some c =>
        obtain ⟨hmem, hcRecord⟩ := certificateOf_spec hc
        have hother : c.id ≠ certID := fun heq =>
          hne (hcRecord.symm.trans (hown.own c hmem heq))
        simp [hother]

/-- The row an insert adds. -/
theorem rowStep_insert (recordID : Int) (w : World) (row : Int → Certificate)
    (hid : ∀ i, (row i).id = i) (hrecord : ∀ i, (row i).recordID = recordID) :
    RowStep recordID w { w with
      certificates := w.certificates.insert row hid } := by
  refine ⟨⟨Int.le_add_one le_rfl, fun c hc hlt => ?_⟩, fun id hne => ?_⟩
  · rcases List.mem_append.mp hc with hold | hnew
    · exact ⟨c, hold, rfl, rfl⟩
    · rw [List.mem_singleton.mp hnew, hid] at hlt
      exact absurd hlt (lt_irrefl _)
  · simp [certificateOf, List.find?_append, hrecord, Ne.symm hne]

/-- A key the table has not given back. -/
theorem rowStep_burn (recordID : Int) (w : World) :
    RowStep recordID w { w with certificates := w.certificates.burn } :=
  ⟨grows_of_subset (Int.le_add_one le_rfl) fun _ hc => hc, fun _ _ => rfl⟩

/-! ## What a stage does to the rows -/

/-- The certificate rows stay as they are. -/
def RowsKept (w w' : World) : Prop := w'.certificates = w.certificates

theorem RowsKept.refl (w : World) : RowsKept w w := rfl

theorem RowsKept.trans (w₁ w₂ w₃ : World) (h : RowsKept w₁ w₂)
    (h' : RowsKept w₂ w₃) : RowsKept w₁ w₃ := Eq.trans h' h

theorem rows_of_aside {o : Oracle Call} {α : Type} {p : Handler α}
    (h : Prog.Keeps o Aside p) : Prog.Keeps o RowsKept p :=
  h.mono fun _ _ => Aside.certificates

/-- The statement of the stage is none on the certificate rows. -/
def Beside : Stage → Prop
  | .ensure _ => False
  | .update _ _ _ => False
  | .setFailed _ _ _ => False
  | _ => True

/-- What a stage beside the rows hands on: the row it works on, and the columns
of a certificate that has been got. -/
structure HandsOn (st st' : Stage) : Prop where
  row : ∀ certID ∈ Stage.certID st', certID ∈ Stage.certID st
  issued : ∀ certID jobID p, st' = .update certID jobID p →
    p.status = lit "valid" ∧ ∃ e, p.notAfter = some e

section Stages

variable {o : Oracle Call} {s : Sys World}

/-- `CreateCertificate`: the row it reports is the record's, and pending. -/
theorem createCertificate_rows (record : Record) (domains : GoString) :
    (createCertificate record.id domains statusPending).wp o s fun r t =>
      RowStep record.id s.state t.state ∧ ∀ certID, r = .ok certID →
        Owns t.state record certID ∧ Pending t.state record.id := by
  refine Prog.wp_mono (createCertificate_spec o record.id domains statusPending
    s) ?_
  rintro r ⟨w', n⟩ ⟨hcreated, hok⟩
  constructor
  · cases hcreated with
    | kept => exact rowStep_of_eq rfl
    | burned => exact rowStep_burn record.id s.state
    | inserted =>
        exact rowStep_insert record.id s.state _ (fun _ => rfl) fun _ => rfl
  · intro certID hid
    obtain ⟨rfl, hnone, rfl⟩ := hok certID hid
    have hrow : certificateOf (certificateInserted record.id domains
        statusPending s.state) record.id =
        some ⟨s.state.certificates.next, record.id, domains, statusPending,
          none, none, none, none, [], []⟩ := by
      simp [certificateInserted, certificateOf, List.find?_append, hnone]
    exact ⟨owns_of_certificateOf hrow, _, hrow, rfl⟩

/-- `UpdateCertificate` on a row of the record. -/
theorem updateCertificate_rows {record : Record} {certID : Int}
    (hown : Owns s.state record certID) (p : CertificateParams) :
    (updateCertificate certID p).wp o s fun _ t =>
      RowStep record.id s.state t.state := by
  have hupdate := rowStep_updateWhere hown p.apply (fun _ => rfl) fun _ => rfl
  unfold updateCertificate
  refine Prog.wp_call_of ?_ (fun _ => rowStep_of_eq rfl) fun _ => ?_
  all_goals
    split
    · exact rowStep_of_eq rfl
    · split
      · exact rowStep_of_eq rfl
      · exact hupdate

/-- `setCertificateFailed` on a row of the record. -/
theorem setCertificateFailed_rows (env : Env) {record : Record} {certID : Int}
    (hown : Owns s.state record certID) (cause : GoError) :
    (setCertificateFailed env certID cause).wp o s fun _ t =>
      RowStep record.id s.state t.state := by
  have hupdate := rowStep_updateWhere hown (fun c => { c with
    status := "failed", lastError := some (env.errorText cause) })
    (fun _ => rfl) fun _ => rfl
  refine (Prog.wp_bind _ _ _).mpr ((Prog.wp_attempt _ _).mpr ?_)
  exact Prog.wp_call_of hupdate (fun _ => rowStep_of_eq rfl) fun _ => hupdate

/-- A statement of `ensureCertificateRow`: the row it reports was there, or is
new and pending. -/
theorem ensure_rows (record : Record) (e : Ensure) :
    (e.next record).wp o s fun r t =>
      RowStep record.id s.state t.state ∧
        ∀ certID, r = .ok (.inr (.ok certID)) → Owns t.state record certID ∧
          (Pending t.state record.id ∨
            e = .find ∧ o s.clock .getCertificateByRecord = .none ∧
              (∃ c, certificateOf s.state record.id = some c) ∧
              t.state = s.state) := by
  cases e with
  | find =>
      refine (Prog.wp_bind _ _ _).mpr ((Prog.wp_attempt _ _).mpr ?_)
      by_cases ho : o s.clock .getCertificateByRecord = .none
      · rw [getCertificateByRecord, Prog.wp_query_none ho]
        cases hrow : s.state.certificates.rows.find? fun c =>
            c.recordID == record.id with
        | none => exact ⟨rowStep_of_eq rfl, nofun⟩
        | some c =>
            refine ⟨rowStep_of_eq rfl, fun certID hid => ?_⟩
            obtain rfl : c.id = certID :=
              Except.ok.inj (Sum.inr.inj (Except.ok.inj hid))
            exact ⟨owns_of_certificateOf hrow, .inr ⟨rfl, ho, ⟨c, hrow⟩, rfl⟩⟩
      · rw [getCertificateByRecord, Prog.wp_query_faulty ho]
        exact ⟨rowStep_of_eq rfl, nofun⟩
  | create =>
      refine (Prog.wp_bind _ _ _).mpr ((Prog.wp_attempt _ _).mpr
        ((Prog.wp_mapError _ _ _).mpr (Prog.wp_mono
          (createCertificate_rows record _) ?_)))
      intro r t ht
      refine ⟨ht.1, fun certID hid => ?_⟩
      cases r with
      | error err => cases hid
      | ok id =>
          obtain ⟨hown, hpending⟩ := ht.2 certID
            (Sum.inr.inj (Except.ok.inj hid))
          exact ⟨hown, .inl hpending⟩

theorem storeFiles_issued (env : Env) (record : Record) (res : Resource) :
    Prog.Returns o (fun p => p.status = lit "valid" ∧ ∃ e, p.notAfter = some e)
      (storeFiles env record res) :=
  .bind_any fun _ => .bind_any fun _ => .pure ⟨rfl, _, rfl⟩

private theorem handsOn_ended (st : Stage) (r : Except GoError Unit) :
    HandsOn st (.ended r) := ⟨nofun, nofun⟩

/-- A program that leaves the rows alone, and a stage that goes on from it. -/
private theorem stage_kept {α : Type} {st : Stage} {p : Handler α}
    {f : Except GoError α → Handler Stage} (hp : Prog.Keeps o Aside p)
    (hf : ∀ r, ∃ st', f r = pure st' ∧ HandsOn st st') :
    (p.attempt >>= f).wp o s fun r t => ∀ st', r = .ok st' →
      RowsKept s.state t.state ∧ HandsOn st st' := by
  refine (Prog.wp_bind _ _ _).mpr ((Prog.wp_attempt _ _).mpr
    (Prog.wp_mono (hp s) fun r t ht => ?_))
  obtain ⟨st', hst', hon⟩ := hf r
  show (f r).wp o t _
  rw [hst']
  intro st'' heq
  obtain rfl := Except.ok.inj heq
  exact ⟨ht.certificates, hon⟩

/-- **The stages beside the rows.** -/
theorem stage_beside (env : Env) (record : Record) (source : IssuanceSource)
    {st : Stage} (hst : Beside st) :
    (st.next env record source).wp o s fun r t => ∀ st', r = .ok st' →
      RowsKept s.state t.state ∧ HandsOn st st' := by
  cases st with
  | ensure e => exact hst.elim
  | update certID jobID p => exact hst.elim
  | setFailed certID jobID cause => exact hst.elim
  | createJob certID =>
      refine stage_kept (.mapError (createCertificateJob_aside env record.id
        certID source) _) fun r => ?_
      cases r with
      | error err => exact ⟨_, rfl, handsOn_ended _ _⟩
      | ok jobID => exact ⟨_, rfl, fun _ h => h, by rintro _ _ _ ⟨⟩⟩
  | obtain certID jobID =>
      rw [Stage.next]
      split
      · intro st' hst'
        cases hst'
        exact ⟨RowsKept.refl _, fun _ h => h, by rintro _ _ _ ⟨⟩⟩
      · intro st' hst'
        cases hst'
        exact ⟨RowsKept.refl _, fun _ h => h, by rintro _ _ _ ⟨⟩⟩
  | files certID jobID res =>
      refine (Prog.wp_bind _ _ _).mpr ((Prog.wp_attempt _ _).mpr (Prog.wp_mono
        (Prog.wp_and (storeFiles_aside env record res s)
          (storeFiles_issued env record res s)) ?_))
      rintro (err | p) t ⟨ht, hp⟩ st' hst'
      · cases hst'
        exact ⟨ht.certificates, fun _ h => h, by rintro _ _ _ ⟨⟩⟩
      · cases hst'
        refine ⟨ht.certificates, fun _ h => h, ?_⟩
        rintro certID' jobID' p' ⟨⟩
        exact hp p rfl
  | finishFailed jobID cause =>
      refine (Prog.wp_bind _ _ _).mpr (Prog.wp_mono
        (finishCertificateJob_aside env jobID "failed" (some cause) s) ?_)
      rintro (err | _) t ht st' hst'
      · cases hst'
      · cases hst'
        exact ⟨ht.certificates, handsOn_ended _ _⟩
  | finishSucceeded jobID =>
      refine (Prog.wp_bind _ _ _).mpr (Prog.wp_mono
        (finishCertificateJob_aside env jobID "success" none s) ?_)
      rintro (err | _) t ht st' hst'
      · cases hst'
      · cases hst'
        exact ⟨ht.certificates, by rintro _ ⟨⟩, by rintro _ _ _ ⟨⟩⟩
  | fire jobID =>
      exact stage_kept (fireTasks_aside env record.id triggerCert
        (some jobID)) fun r => ⟨_, rfl, handsOn_ended _ _⟩
  | ended r =>
      intro st' hst'
      cases hst'
      exact ⟨RowsKept.refl _, handsOn_ended _ _⟩

/-- **What a stage does to the rows**, whatever goes wrong: only the row of its
record changes, and the next stage works on that row. -/
theorem stage_rows (env : Env) (record : Record) (source : IssuanceSource)
    {st : Stage} (hown : OwnStage s.state record st) :
    (st.next env record source).wp o s fun r t => ∀ st', r = .ok st' →
      RowStep record.id s.state t.state ∧ OwnStage t.state record st' := by
  have hbeside : Beside st → (st.next env record source).wp o s fun r t =>
      ∀ st', r = .ok st' →
        RowStep record.id s.state t.state ∧ OwnStage t.state record st' := by
    intro hst
    refine Prog.wp_mono (stage_beside env record source hst) ?_
    intro r t h st' hr
    obtain ⟨hrows, hon⟩ := h st' hr
    exact ⟨rowStep_of_eq hrows, fun certID hcert =>
      (hown certID (hon.row certID hcert)).grows (grows_of_eq hrows)⟩
  cases st with
  | ensure e =>
      refine (Prog.wp_bind _ _ _).mpr (Prog.wp_mono (ensure_rows record e) ?_)
      rintro (err | e' | err | certID) t ht st' hst'
      · cases hst'
      · cases hst'
        exact ⟨ht.1, nofun⟩
      · cases hst'
        exact ⟨ht.1, nofun⟩
      · cases hst'
        refine ⟨ht.1, fun certID' hcert => ?_⟩
        obtain rfl := Option.some.inj hcert
        exact (ht.2 certID rfl).1
  | update certID jobID p =>
      have hrow := hown certID rfl
      refine (Prog.wp_bind _ _ _).mpr ((Prog.wp_attempt _ _).mpr
        ((Prog.wp_mapError _ _ _).mpr (Prog.wp_mono
          (updateCertificate_rows hrow p) ?_)))
      intro r t ht st' hst'
      cases r with
      | error err =>
          cases hst'
          exact ⟨ht, hown.grows ht.grows⟩
      | ok _ =>
          cases hst'
          exact ⟨ht, nofun⟩
  | setFailed certID jobID cause =>
      refine (Prog.wp_bind _ _ _).mpr (Prog.wp_mono
        (setCertificateFailed_rows env (hown certID rfl) cause) ?_)
      intro r t ht
      cases r with
      | error err => exact fun st' hst' => nomatch hst'
      | ok _ =>
          intro st' hst'
          cases hst'
          exact ⟨ht, nofun⟩
  | _ => exact hbeside trivial

end Stages

/-! ## What a statement of a call does to the rows -/

/-- A call that is in an issuance is in one that works on its own row. -/
def OwnPc (w : World) : Pc → Prop
  | .issuing record _ st _ => OwnStage w record st
  | _ => True

theorem OwnPc.grows {w w' : World} {pc : Pc} (h : OwnPc w pc)
    (hgrows : Grows w w') : OwnPc w' pc := by
  cases pc with
  | issuing record source st k => exact OwnStage.grows h hgrows
  | _ => trivial

/-- The call is in no issuance, or at the first stage of one. -/
def AtFirst : Pc → Prop
  | .issuing _ _ st _ => st = .first
  | _ => True

theorem atFirst_return (r : Except GoError Unit) (k : Return) :
    AtFirst (k.pc r) := by
  cases k with
  | caller => trivial
  | renewal rest => trivial

theorem atFirst_after (r : Except GoError Unit) (k : After) :
    AtFirst (k.pc r) := by
  cases k with
  | caller => trivial
  | save record => trivial

theorem AtFirst.own {pc : Pc} (h : AtFirst pc) (w : World) : OwnPc w pc := by
  cases pc with
  | issuing record source st k =>
      obtain rfl := show st = .first from h
      exact nofun
  | _ => trivial

/-- The next statement of the call is none of an issuance, nor of the
preparation of one. -/
def Outside : Pc → Prop
  | .prepare _ _ _ => False
  | .issuing _ _ st _ => ∃ r, st = .ended r
  | _ => True

/-- The other statements are those of an issuance and of its preparation. -/
theorem outside_or (pc : Pc) : Outside pc ∨
    (∃ record e k, pc = .prepare record e k) ∨
      ∃ record source st k, pc = .issuing record source st k ∧
        ∀ r, st ≠ .ended r := by
  cases pc with
  | prepare record e k => exact .inr (.inl ⟨record, e, k, rfl⟩)
  | issuing record source st k =>
      by_cases hended : ∃ r, st = .ended r
      · exact .inl hended
      · exact .inr (.inr ⟨record, source, st, k, rfl,
          fun r h => hended ⟨r, h⟩⟩)
  | _ => exact .inl trivial

/-- **What a statement of `pc` does to the rows**: none changes but that of the
record whose slot the call holds.  A record handed to a background goroutine
has a pending row, or one that was there before. -/
structure RowMove (o : Oracle Call) (w w' : World) (pc pc' : Pc)
    (spawned : Option Record) : Prop where
  grows : Grows w w'
  others : ∀ id, pc.slot ≠ some id → certificateOf w' id = certificateOf w id
  own : OwnPc w' pc'
  spawns : ∀ record ∈ spawned, Pending w' record.id ∨
    ∃ k, pc = .prepare record .find k ∧ o 0 .getCertificateByRecord = .none ∧
      (∃ c, certificateOf w record.id = some c) ∧
      w'.certificates = w.certificates

section Calls

variable {o : Oracle Call} {w : World} {pc : Pc}

/-- The statement of `pc`, if there is one, is such a move. -/
def MovesRows (o : Oracle Call) (w : World) (pc : Pc)
    (p : Handler (Pc × Option Record)) : Prop :=
  p.wp o ⟨w, 0⟩ fun r t => ∀ x, r = .ok x → RowMove o w t.state pc x.1 x.2

/-- A program that leaves the rows alone, and after it a call that is at most
at the first stage of an issuance. -/
private theorem outside_kept {α : Type} {p : Handler α}
    {f : α → Handler (Pc × Option Record)} (hp : Prog.Keeps o RowsKept p)
    (hf : ∀ a, ∃ pc', f a = pure (pc', none) ∧ AtFirst pc') :
    (p >>= f).wp o ⟨w, 0⟩ fun r t => ∀ x, r = .ok x →
      RowsKept w t.state ∧ x.2 = none ∧ AtFirst x.1 := by
  refine Prog.wp_bind_of (hp ⟨w, 0⟩) (fun err t _ x hx => nomatch hx) ?_
  intro a t ht
  obtain ⟨pc', hpc', hfirst⟩ := hf a
  rw [hpc']
  intro x hx
  obtain rfl := Except.ok.inj hx
  exact ⟨ht, rfl, hfirst⟩

private theorem outside_pure {pc' : Pc} (h : AtFirst pc') :
    (pure (pc', none) : Handler (Pc × Option Record)).wp o ⟨w, 0⟩ fun r t =>
      ∀ x, r = .ok x → RowsKept w t.state ∧ x.2 = none ∧ AtFirst x.1 := by
  intro x hx
  obtain rfl := Except.ok.inj hx
  exact ⟨RowsKept.refl w, rfl, h⟩

theorem takeSlot_rows (env : Env) (record : Record) :
    Prog.Keeps o RowsKept (takeSlot env record) :=
  takeSlot_keeps RowsKept.refl RowsKept.trans (fun _ _ => rfl) env record

theorem storeRow_rows (env : Env) (input : RecordInput)
    (token : GoString) : Prog.Keeps o RowsKept (storeRow env input token) :=
  storeRow_keeps RowsKept.refl RowsKept.trans (fun _ _ => rfl) env input token

/-- **What the statements outside of an issuance do**: nothing to the rows, and
no record is handed to a background goroutine. -/
theorem next_outside (env : Env) (hpc : Outside pc) :
    (pc.next env).wp o ⟨w, 0⟩ fun r t => ∀ x, r = .ok x →
      RowsKept w t.state ∧ x.2 = none ∧ AtFirst x.1 := by
  cases pc with
  | idle => exact fun x hx => nomatch hx
  | returned r => exact fun x hx => nomatch hx
  | start id k =>
      refine outside_kept (.attempt (.query RowsKept.refl)) fun r => ?_
      cases r with
      | ok record => exact ⟨_, rfl, trivial⟩
      | error err => exact ⟨_, rfl, atFirst_after _ k⟩
  | startReserve record k =>
      refine outside_kept (.attempt (takeSlot_rows env record)) fun r => ?_
      cases r with
      | ok _ => exact ⟨_, rfl, trivial⟩
      | error err => exact ⟨_, rfl, atFirst_after _ k⟩
  | prepare record e k => exact hpc.elim
  | abort record err k =>
      exact outside_kept (.modify fun _ => rfl) fun _ =>
        ⟨_, rfl, atFirst_after _ k⟩
  | issue id =>
      refine outside_kept (.attempt (.query RowsKept.refl)) fun r => ?_
      cases r with
      | ok record => exact ⟨_, rfl, trivial⟩
      | error err => exact ⟨_, rfl, trivial⟩
  | reserve record source k =>
      refine outside_kept (.attempt (takeSlot_rows env record)) fun r => ?_
      cases r with
      | ok _ => exact ⟨_, rfl, rfl⟩
      | error err => exact ⟨_, rfl, atFirst_return _ k⟩
  | issuing record source st k =>
      obtain ⟨r, rfl⟩ := hpc
      exact outside_kept (.modify fun _ => rfl) fun _ =>
        ⟨_, rfl, atFirst_return r k⟩
  | renew =>
      rw [Pc.next]
      split
      · exact outside_pure trivial
      · refine outside_kept (.attempt (.query RowsKept.refl)) fun r => ?_
        cases r with
        | ok certs => exact ⟨_, rfl, trivial⟩
        | error err => exact ⟨_, rfl, trivial⟩
  | renewNext rest =>
      cases rest with
      | nil => exact outside_pure trivial
      | cons cert rest =>
          refine outside_kept (.attempt (.query RowsKept.refl)) fun r => ?_
          cases r with
          | error err => exact ⟨_, rfl, trivial⟩
          | ok record =>
              dsimp only
              split
              · exact ⟨_, rfl, trivial⟩
              · exact ⟨_, rfl, trivial⟩
  | save input =>
      rw [Pc.next]
      split
      · split
        · exact outside_pure trivial
        · exact outside_pure trivial
      · exact outside_pure trivial
  | saveToken input =>
      refine outside_kept (.attempt (.query RowsKept.refl)) fun r => ?_
      cases r with
      | ok existing => exact ⟨_, rfl, trivial⟩
      | error err => exact ⟨_, rfl, trivial⟩
  | saveRow input token =>
      refine outside_kept (.attempt (storeRow_rows env input token))
        fun r => ?_
      cases r with
      | ok id => exact ⟨_, rfl, trivial⟩
      | error err => exact ⟨_, rfl, trivial⟩
  | saveBack id =>
      refine outside_kept (.attempt (.query RowsKept.refl)) fun r => ?_
      cases r with
      | ok record => exact ⟨_, rfl, trivial⟩
      | error err => exact ⟨_, rfl, trivial⟩
  | saveRefresh record =>
      refine outside_kept (.attempt (rows_of_aside
        (refreshRecord_aside env record))) fun r => ?_
      cases r with
      | ok record => exact ⟨_, rfl, trivial⟩
      | error err => exact ⟨_, rfl, trivial⟩
  | saveIssue record =>
      rw [Pc.next]
      split
      · exact outside_pure trivial
      · exact outside_pure trivial
  | answer record =>
      exact outside_kept (.attempt (rows_of_aside (answer_aside record)))
        fun r => ⟨_, rfl, trivial⟩

/-- A statement of the preparation of `StartIssuance`. -/
private theorem movesRows_prepare (env : Env) (record : Record) (e : Ensure)
    (k : After) :
    MovesRows o w (.prepare record e k) ((Pc.prepare record e k).next env) := by
  refine Prog.wp_bind_of (ensure_rows (s := ⟨w, 0⟩) record e) ?_ ?_
  · intro err t _ x hx
    cases hx
  have hothers : ∀ {t : Sys World}, RowStep record.id w t.state → ∀ id,
      (Pc.prepare record e k).slot ≠ some id →
        certificateOf t.state id = certificateOf w id :=
    fun h id hid => h.others id fun heq => hid (congrArg some heq.symm)
  rintro (e' | err | certID) t ⟨hstep, hown⟩
  · intro x hx
    cases hx
    exact ⟨hstep.grows, hothers hstep, trivial, nofun⟩
  · intro x hx
    cases hx
    exact ⟨hstep.grows, hothers hstep, trivial, nofun⟩
  · show Prog.wp (Prog.modify (·.log (.startIssuance record)) >>= fun _ =>
      pure (k.pc (.ok ()), some record)) o t _
    rw [Prog.wp_bind, Prog.wp_modify]
    intro x hx
    obtain rfl := Except.ok.inj hx
    have hshown := (hown certID rfl).2
    have hlogged : RowStep record.id w (t.state.log (.startIssuance record)) :=
      ⟨⟨hstep.grows.next, hstep.grows.rows⟩, hstep.others⟩
    refine ⟨hlogged.grows, hothers (t := ⟨_, 0⟩) hlogged,
      (atFirst_after _ k).own _, ?_⟩
    intro record' hrecord'
    obtain rfl := Option.some.inj hrecord'
    refine hshown.imp id ?_
    rintro ⟨rfl, ho, hrow, ht⟩
    have hrows : t.state.certificates = w.certificates :=
      congrArg World.certificates ht
    exact ⟨k, rfl, ho, hrow, hrows⟩

/-- A statement of an issuance the caller waits for. -/
private theorem movesRows_issuing (env : Env) (record : Record)
    (source : IssuanceSource) {st : Stage} (k : Return)
    (hrunning : ∀ r, st ≠ .ended r) (hown : OwnStage w record st) :
    MovesRows o w (.issuing record source st k)
      ((Pc.issuing record source st k).next env) := by
  rw [next_issuing env record source k hrunning]
  refine (Prog.wp_bind _ _ _).mpr (Prog.wp_mono
    (stage_rows (s := ⟨w, 0⟩) env record source hown) ?_)
  intro r t ht
  cases r with
  | error err => exact fun x hx => nomatch hx
  | ok st' =>
      obtain ⟨hstep, hown'⟩ := ht st' rfl
      intro x hx
      obtain rfl := Except.ok.inj hx
      refine ⟨hstep.grows, fun id hid => hstep.others id fun heq => ?_,
        hown', nofun⟩
      exact hid (congrArg some heq.symm)

/-- **Every statement of the main flow.** -/
theorem next_rows (env : Env) (hown : OwnPc w pc) :
    MovesRows o w pc (pc.next env) := by
  rcases outside_or pc with hpc | ⟨record, e, k, rfl⟩ |
    ⟨record, source, st, k, rfl, hrunning⟩
  · refine Prog.wp_mono (next_outside env hpc) ?_
    rintro r t h x rfl
    obtain ⟨hrows, hnone, hfirst⟩ := h x rfl
    have hkept : ∀ id, certificateOf t.state id = certificateOf w id :=
      fun id => congrArg (fun certs : Table Certificate =>
        certs.rows.find? fun c : Certificate => c.recordID == id) hrows
    exact ⟨grows_of_eq hrows, fun id _ => hkept id, hfirst.own _,
      fun record hrecord => nomatch hnone.symm.trans hrecord⟩
  · exact movesRows_prepare env record e k
  · exact movesRows_issuing env record source k hrunning hown

end Calls

/-! ## What a statement of a thread does to the rows -/

/-- A background goroutine works on the row of its record. -/
def OwnBackground (w : World) (t : Thread) : Prop :=
  ∀ b, t.background = some b → OwnStage w b.1 b.2

theorem OwnBackground.grows {w w' : World} {t : Thread}
    (h : OwnBackground w t) (hgrows : Grows w w') : OwnBackground w' t :=
  fun b hb => (h b hb).grows hgrows

theorem ownBackground_none (w : World) (pc : Pc) :
    OwnBackground w ⟨pc, none⟩ := by
  intro b hb
  cases hb

theorem ownBackground_some {w : World} {record : Record} {st : Stage}
    (h : OwnStage w record st) (pc : Pc) :
    OwnBackground w ⟨pc, some (record, st)⟩ := by
  intro b hb
  cases hb
  exact h

theorem ownStage_first (w : World) (record : Record) :
    OwnStage w record .first := by
  intro certID hcert
  cases hcert

/-- **What a statement of thread `t` does to the rows.** -/
structure ThreadRows (w w' : World) (t t' : Thread) : Prop where
  grows : Grows w w'
  others : ∀ id, t.slot ≠ some id → certificateOf w' id = certificateOf w id
  main : OwnPc w' t'.main
  background : OwnBackground w' t'

/-- The background goroutine of a thread after a statement of its main flow: as
it was, or new. -/
def Spawns (o : Oracle Call) (w w' : World) (t t' : Thread) : Prop :=
  (t'.background = t.background ∧
      (t.background.isSome = true → w'.certificates = w.certificates)) ∨
    t.background = none ∧ ∃ record, t'.background = some (record, .first) ∧
      (Pending w' record.id ∨
        ∃ k, t.main = .prepare record .find k ∧
          o 0 .getCertificateByRecord = .none ∧
          (∃ c, certificateOf w record.id = some c) ∧
          w'.certificates = w.certificates)

section Threads

variable {o : Oracle Call} {w : World} {t : Thread}

theorem mainStep_rows (env : Env) (hsound : t.Sound) (hmain : OwnPc w t.main)
    (hbackground : OwnBackground w t) :
    (t.mainStep env).wp o ⟨w, 0⟩ fun r sys => ∀ t', r = .ok t' →
      ThreadRows w sys.state t t' ∧ Spawns o w sys.state t t' := by
  obtain ⟨pc, background⟩ := t
  cases background with
  | some b =>
      have hwinding := hsound b rfl
      refine Prog.wp_bind_of (Prog.wp_and (next_winding env o ⟨w, 0⟩ hwinding)
        (next_rows env hmain)) ?_ ?_
      · intro err sys _ t' ht'
        cases ht'
      · rintro ⟨pc', spawned⟩ sys ⟨hwound, hrows⟩ t' ht'
        obtain ⟨haside, _, hnone⟩ := hwound _ rfl
        have hmove := hrows _ rfl
        obtain rfl : spawned = none := hnone
        obtain rfl : ⟨pc', some b⟩ = t' := Except.ok.inj ht'
        have hothers : ∀ id, certificateOf sys.state id = certificateOf w id :=
          certificateOf_aside haside
        have hown : OwnBackground sys.state ⟨pc', some b⟩ :=
          fun b' hb' => (hbackground b' hb').grows hmove.grows
        exact ⟨⟨hmove.grows, fun id _ => hothers id, hmove.own, hown⟩,
          .inl ⟨rfl, fun _ => haside.certificates⟩⟩
  | none =>
      refine Prog.wp_bind_of (next_rows env hmain) ?_ ?_
      · intro err sys _ t' ht'
        cases ht'
      · rintro ⟨pc', spawned⟩ sys hrows t' ht'
        have hmove := hrows _ rfl
        cases spawned with
        | none =>
            obtain rfl : ⟨pc', none⟩ = t' := Except.ok.inj ht'
            refine ⟨⟨hmove.grows, hmove.others, hmove.own,
              ownBackground_none _ pc'⟩, .inl ⟨rfl, fun h => ?_⟩⟩
            cases h
        | some record =>
            obtain rfl : ⟨pc', some (record, .first)⟩ = t' :=
              Except.ok.inj ht'
            exact ⟨⟨hmove.grows, hmove.others, hmove.own,
              ownBackground_some (ownStage_first _ record) pc'⟩,
              .inr ⟨rfl, record, rfl, hmove.spawns record rfl⟩⟩

theorem backgroundStep_rows (env : Env) (hmain : OwnPc w t.main)
    (hbackground : OwnBackground w t) :
    (t.backgroundStep env).wp o ⟨w, 0⟩ fun r sys => ∀ t', r = .ok t' →
      ThreadRows w sys.state t t' ∧
        ∀ b', t'.background = some b' →
          t.background.map (·.1) = some b'.1 := by
  obtain ⟨pc, background⟩ := t
  cases background with
  | none =>
      intro t' ht'
      cases ht'
  | some b =>
      obtain ⟨record, st⟩ := b
      refine wp_backgroundStep env ?_ ?_
      · rintro r rfl
        refine ⟨⟨grows_of_eq rfl, fun _ _ => rfl, hmain.grows (grows_of_eq rfl),
          ownBackground_none _ pc⟩, fun b' hb' => ?_⟩
        cases hb'
      · refine Prog.wp_mono
          (stage_rows (s := ⟨w, 0⟩) env record _ (hbackground _ rfl)) ?_
        intro r sys hrows st' hr
        obtain ⟨hstep, hown⟩ := hrows st' hr
        refine ⟨⟨hstep.grows, fun id hid => hstep.others id fun heq => ?_,
          hmain.grows hstep.grows, ownBackground_some hown pc⟩,
          fun b' hb' => ?_⟩
        · exact hid (congrArg some heq.symm)
        · cases hb'
          rfl

end Threads

/-! ## Runs -/

/-- Slots exclude each other, and every issuance works on the row of its
record. -/
structure Works (s : State) : Prop where
  exclusive : Exclusive s
  main : ∀ i, OwnPc s.world (s.threads i).main
  background : ∀ i, OwnBackground s.world (s.threads i)

theorem works_start {w : World} (h : w.pending = fun _ => false) :
    Works (Issuances.start w) where
  exclusive := exclusive_start h
  main := fun _ => trivial
  background := fun _ => ownBackground_none w .idle

/-- The rows of the other threads' records stay. -/
theorem Works.row_of_other {s : State} (h : Works s) {i j : Nat} {w : World}
    {t : Thread} (hrows : ThreadRows s.world w (s.threads i) t) (hj : j ≠ i)
    {b : Record × Stage} (hb : (s.threads j).background = some b) :
    certificateOf w b.1.id = certificateOf s.world b.1.id := by
  refine hrows.others b.1.id fun hslot => hj ?_
  have hheld : (s.threads j).slot = some b.1.id := by
    rw [Thread.slot, hb]
  have hi := (h.exclusive.held _ i).mpr hslot
  have hj := (h.exclusive.held _ j).mpr hheld
  exact Option.some.inj (hj.symm.trans hi)

theorem Works.moved {s : State} (h : Works s) {i : Nat} {w : World}
    {t : Thread} (hrows : ThreadRows s.world w (s.threads i) t)
    (hexclusive : Exclusive (s.moved i w t)) : Works (s.moved i w t) where
  exclusive := hexclusive
  main := (Pool.forall_set (P := fun _ (t : Thread) => OwnPc w t.main)
    s.threads i t).mpr
    ⟨hrows.main, fun j _ => (h.main j).grows hrows.grows⟩
  background := (Pool.forall_set (P := fun _ t => OwnBackground w t) s.threads
    i t).mpr
    ⟨hrows.background, fun j _ => (h.background j).grows hrows.grows⟩

theorem works_step (s : Watch) (a : Label) (s' : Watch) (h : Works s.calls)
    (hcalm : Undisturbed s a) (hstep : watched.step s a = some s') :
    Works s'.calls := by
  obtain ⟨calls, hcalls, rfl⟩ := Option.map_eq_some_iff.mp hstep
  have hexclusive := exclusive_step s.calls a calls h.exclusive hcalls
  cases a with
  | call i e =>
      simp only [issuances] at hcalls
      split at hcalls
      · next hidle =>
        obtain rfl := Option.some.inj hcalls
        refine ⟨hexclusive, ?_, ?_⟩
        · refine (Pool.forall_set (P := fun _ (t : Thread) =>
            OwnPc s.calls.world t.main) _ i _).mpr ⟨?_, fun j _ => h.main j⟩
          cases e <;> trivial
        · exact (Pool.forall_set (P := fun _ (t : Thread) =>
            OwnBackground s.calls.world t) _ i _).mpr
            ⟨h.background i, fun j _ => h.background j⟩
      · cases hcalls
  | main i env o =>
      obtain ⟨t, ht, rfl⟩ := carryOut_eq_some hcalls
      obtain ⟨hrows, _⟩ := mainStep_rows env (h.exclusive.sound i) (h.main i)
        (h.background i) t ht
      exact h.moved hrows hexclusive
  | background i env o =>
      obtain ⟨t, ht, rfl⟩ := carryOut_eq_some hcalls
      obtain ⟨hrows, _⟩ := backgroundStep_rows env (h.main i) (h.background i)
        t ht
      exact h.moved hrows hexclusive
  | others w =>
      obtain rfl := Option.some.inj hcalls
      have hgrows : Grows s.calls.world
          { w with pending := s.calls.world.pending } :=
        grows_of_subset hcalm.1.ge hcalm.2
      exact ⟨hexclusive, fun i => (h.main i).grows hgrows,
        fun i => (h.background i).grows hgrows⟩

/-- A row that no step has changed is as pending as before. -/
theorem Pending.congr {w w' : World} {recordID : Int}
    (h : Pending w recordID)
    (hrow : certificateOf w' recordID = certificateOf w recordID) :
    Pending w' recordID := by
  obtain ⟨c, hc, hstatus⟩ := h
  exact ⟨c, hrow.trans hc, hstatus⟩

/-- **Step lemma.** -/
theorem shown_step (s : Watch) (a : Label) (s' : Watch)
    (h : Works s.calls ∧ Shown s) (hcond : Undisturbed s a ∧ Clear s a)
    (hstep : watched.step s a = some s') : Works s'.calls ∧ Shown s' := by
  refine ⟨works_step s a s' h.1 hcond.1 hstep, ?_⟩
  obtain ⟨hworks, hshown⟩ := h
  obtain ⟨hcalm, hclear⟩ := hcond
  obtain ⟨calls, hcalls, rfl⟩ := Option.map_eq_some_iff.mp hstep
  intro j record st hj hstored
  cases a with
  | call i e =>
      simp only [issuances] at hcalls
      split at hcalls
      · next hidle =>
        obtain rfl := Option.some.inj hcalls
        refine hshown j record st ?_ hstored
        by_cases hji : j = i
        · subst hji
          have hself := congrArg Thread.background (Pool.set_self
            s.calls.threads j ⟨e.pc, (s.calls.threads j).background⟩)
          exact hself.symm.trans hj
        · exact (congrArg Thread.background (Pool.set_ne s.calls.threads _
            hji)).symm.trans hj
      · cases hcalls
  | main i env o =>
      obtain ⟨t, ht, rfl⟩ := carryOut_eq_some hcalls
      obtain ⟨hrows, hspawns⟩ := mainStep_rows env (hworks.exclusive.sound i)
        (hworks.main i) (hworks.background i) t ht
      by_cases hji : j = i
      · subst hji
        have hj : t.background = some (record, st) :=
          (congrArg Thread.background (moved_self s.calls j _ t)).symm.trans hj
        rcases hspawns with ⟨hsame, hcerts⟩ | ⟨hnone, record', hnew, hnewRow⟩
        · have hold := hsame.symm.trans hj
          have hsome : (s.calls.threads j).background.isSome = true := by
            rw [hold]; rfl
          have hrow := congrArg (fun certs : Table Certificate =>
            certs.rows.find? fun c : Certificate => c.recordID == record.id)
            (hcerts hsome)
          refine (hshown j record st hold ?_).congr hrow
          simpa [Watch.storedAfter, hold] using hstored
        · obtain ⟨rfl, rfl⟩ := Prod.mk.inj (Option.some.inj (hnew.symm.trans hj))
          rcases hnewRow with hpending | ⟨k, hpc, ho, ⟨c, hc⟩, hcerts⟩
          · exact hpending
          · have hstatus := hclear
            simp only [Clear, hpc] at hstatus
            have hrow := congrArg (fun certs : Table Certificate =>
              certs.rows.find? fun c : Certificate => c.recordID == record'.id)
              hcerts
            exact ⟨c, hrow.trans hc, hstatus ho c hc⟩
      · have hold : (s.calls.threads j).background = some (record, st) :=
          (congrArg Thread.background
            (moved_ne s.calls _ t hji)).symm.trans hj
        refine (hshown j record st hold ?_).congr
          (hworks.row_of_other hrows hji hold)
        simpa [Watch.storedAfter, hji] using hstored
  | background i env o =>
      obtain ⟨t, ht, rfl⟩ := carryOut_eq_some hcalls
      obtain ⟨hrows, hsame⟩ := backgroundStep_rows env (hworks.main i)
        (hworks.background i) t ht
      by_cases hji : j = i
      · subst hji
        have hj : t.background = some (record, st) :=
          (congrArg Thread.background (moved_self s.calls j _ t)).symm.trans hj
        obtain ⟨⟨record', st'⟩, hold, hrecord⟩ :=
          Option.map_eq_some_iff.mp (hsame _ hj)
        obtain rfl : record' = record := hrecord
        simp only [Watch.storedAfter, State.row, hold, beq_self_eq_true,
          Bool.true_and, Bool.or_eq_false_iff, bne_eq_false_iff_eq] at hstored
        exact (hshown j record' st' hold hstored.1).congr hstored.2
      · have hold : (s.calls.threads j).background = some (record, st) :=
          (congrArg Thread.background
            (moved_ne s.calls _ t hji)).symm.trans hj
        refine (hshown j record st hold ?_).congr
          (hworks.row_of_other hrows hji hold)
        simpa [Watch.storedAfter, hji] using hstored
  | others w =>
      obtain rfl := Option.some.inj hcalls
      exact hclear j record st hj hstored (hshown j record st hj hstored)

/-! ## The main result -/

/-- A `StartIssuance` that has found a row hands its record to the
background. -/
theorem spawns_of_found (env : Env) {o : Oracle Call} {s : State} {i : Nat}
    {record : Record} {k : After} {c : Certificate}
    (hsound : (s.threads i).Sound)
    (hpc : (s.threads i).main = .prepare record .find k)
    (ho : o 0 .getCertificateByRecord = .none)
    (hc : certificateOf s.world record.id = some c) :
    (s.threads i).background = none ∧
      ∃ s', issuances.step s (.main i env o) = some s' ∧
        (s'.threads i).background = some (record, .first) ∧
        s'.world.certificates = s.world.certificates := by
  have hnone : (s.threads i).background = none := by
    cases hb : (s.threads i).background with
    | none => rfl
    | some b =>
        have hwinding := hsound b hb
        rw [hpc] at hwinding
        cases hwinding
  have hquery : (getCertificateByRecord record.id).attempt o ⟨s.world, 0⟩ =
      (.ok (.ok c), ⟨s.world, 1⟩) := by
    have hrow : s.world.certificates.rows.find?
        (fun c => c.recordID == record.id) = some c := hc
    simp [Prog.attempt, getCertificateByRecord, Prog.query, Prog.call, ho, hrow]
  have hrun : (s.threads i).mainStep env o ⟨s.world, 0⟩ =
      (.ok ⟨k.pc (.ok ()), some (record, .first)⟩,
        ⟨s.world.log (.startIssuance record), 1⟩) := by
    rw [Thread.mainStep, hpc]
    simp only [Pc.next, Ensure.next, Prog.bind_apply, hquery]
    rfl
  have hstep : issuances.step s (.main i env o) = some (s.moved i
      (s.world.log (.startIssuance record))
      ⟨k.pc (.ok ()), some (record, .first)⟩) := by
    show s.carryOut i _ o = _
    rw [State.carryOut, hrun]
  refine ⟨hnone, _, hstep, ?_, rfl⟩
  exact congrArg Thread.background (moved_self s i _ _)

/-- **Step lemma, the other way.**  A step after which every started issuance
shows as pending has met the condition. -/
theorem clear_of_shown {s : Watch} {a : Label} (hworks : Works s.calls)
    (hshown : ∀ s', watched.step s a = some s' → Shown s') : Clear s a := by
  cases a with
  | main i env o =>
      show match (s.calls.threads i).main with
        | .prepare record .find _ => _
        | _ => True
      split
      · next record k hpc =>
        intro ho c hc
        obtain ⟨hnone, calls, hstep, hnew, hcerts⟩ := spawns_of_found env
          (hworks.exclusive.sound i) hpc ho hc
        have hshown' := hshown ⟨calls, s.storedAfter (.main i env o) calls⟩ (by
          show (issuances.step s.calls (.main i env o)).map _ = _
          rw [hstep]; rfl)
        obtain ⟨c', hc', hstatus⟩ := hshown' i record .first hnew
          (by simp [Watch.storedAfter, hnone])
        have hsame : certificateOf calls.world record.id = some c := by
          rw [certificateOf, hcerts]
          exact hc
        obtain rfl : c' = c := Option.some.inj (hc'.symm.trans hsame)
        exact hstatus
      · trivial
  | others w =>
      intro i record st hbackground hstored _
      exact hshown _ rfl i record st hbackground hstored
  | _ => trivial

/-- **A started issuance shows as pending** until it stores its outcome, in
every state of a run, if and only if no `StartIssuance` of the run finds a row
with another status and no row that a started issuance still has to change is
deleted. -/
theorem started_issuance_shows_pending_iff (w : World) (as : List Label)
    (hfree : w.pending = fun _ => false)
    (hcalm : watched.Along Undisturbed (Watch.start w) as) :
    watched.Along (fun s a => ∀ s', watched.step s a = some s' → Shown s')
        (Watch.start w) as ↔
      watched.Along Clear (Watch.start w) as := by
  have hworks := watched.along_invariant works_step as (Watch.start w)
    (works_start hfree) hcalm
  refine ⟨fun hshown => ?_, fun hclear => ?_⟩
  · exact watched.along_mono (fun s a h => clear_of_shown h.1.1 h.2) as _
      (watched.along_and as _ hworks hshown)
  · have hstart : Works (Watch.start w).calls ∧ Shown (Watch.start w) :=
      ⟨works_start hfree, fun i record st h => nomatch h⟩
    refine watched.along_mono (fun s a h => ?_) as _ (watched.along_invariant
      shown_step as _ hstart (watched.along_and as _ hcalm hclear))
    exact fun s' hstep => (shown_step s a s' h.1 h.2 hstep).2

private def certRecord : Record :=
  ⟨1, "token", 7, "example.org", "www", 60, none, purposeCert, false, none⟩

/-- A database with one certificate record. -/
private def oneRecord : World :=
  { World.init fun _ _ => none with
    records := Table.empty.insert fun id => { certRecord with id := id } }

private def acmeOn : Env := { Env.sample with acmeEnabled := true }

/-- The statements of a `StartIssuance` of thread `i` that finds a row. -/
private def starts (i : Nat) : List Label :=
  .call i (.startIssuance 1) :: List.replicate 3 (.main i acmeOn .quiet)

/-- A first issuance, which has to create the row, to its end. -/
private def firstIssuance : List Label :=
  starts 0 ++ .main 0 acmeOn .quiet ::
    List.replicate 8 (.background 0 acmeOn .quiet)

/-- The condition, checked; no call outside the model intervenes. -/
private def seesPending (s : Watch) : Label → Bool
  | .main i _ _ =>
      match (s.calls.threads i).main with
      | .prepare record .find _ =>
          (certificateOf s.calls.world record.id).all fun c =>
            c.status == statusPending
      | _ => true
  | .others _ => false
  | _ => true

private theorem clear_of_seesPending (s : Watch) (a : Label)
    (h : seesPending s a = true) : Undisturbed s a ∧ Clear s a := by
  cases a with
  | main i env o =>
      refine ⟨trivial, ?_⟩
      simp only [seesPending] at h
      simp only [Clear]
      split
      · next record k hpc =>
        intro _ c hc
        have hrow : (certificateOf s.calls.world record.id).all
            (fun c => c.status == statusPending) = true := by
          simpa only [hpc] using h
        rw [Option.mem_def.mp hc] at hrow
        exact eq_of_beq hrow
      · trivial
  | others w => cases h
  | _ => exact ⟨trivial, trivial⟩

/-- The first issuance of a record shows as pending until its end. -/
theorem started_issuance_shows_pending_iff_first :
    watched.Along (fun s a => ∀ s', watched.step s a = some s' → Shown s')
      (Watch.start oneRecord) firstIssuance := by
  have hchecked : watched.Along (fun s a => seesPending s a = true)
      (Watch.start oneRecord) firstIssuance := by decide +kernel
  have hcalm := watched.along_mono (fun s a h => (clear_of_seesPending s a h).1)
    _ _ hchecked
  have hclear := watched.along_mono (fun s a h => (clear_of_seesPending s a h).2)
    _ _ hchecked
  exact (started_issuance_shows_pending_iff oneRecord firstIssuance rfl
    hcalm).mpr hclear

private def returnsNil : Pc → Bool
  | .returned (.ok ()) => true
  | _ => false

private theorem returned_of_returnsNil {pc : Pc} (h : returnsNil pc = true) :
    pc = .returned (.ok ()) := by
  cases pc with
  | returned r =>
      cases r with
      | ok _ => rfl
      | error err => cases h
  | _ => cases h

/-- **A second issuance**: its `StartIssuance` has returned nil, it is in the
background, and the row still says `valid`. -/
theorem repeated_issuance_shows_valid :
    ∃ s record st c, watched.run (Watch.start oneRecord)
        (firstIssuance ++ starts 1) = some s ∧
      (s.calls.threads 1).main = .returned (.ok ()) ∧
      (s.calls.threads 1).background = some (record, st) ∧
      s.stored 1 = false ∧ certificateOf s.calls.world record.id = some c ∧
      c.status = "valid" ∧ ¬ Shown s := by
  obtain ⟨s, hrun⟩ := Option.isSome_iff_exists.mp
    (show (watched.run (Watch.start oneRecord)
      (firstIssuance ++ starts 1)).isSome = true by decide +kernel)
  have hend : ∀ s ∈ watched.run (Watch.start oneRecord)
      (firstIssuance ++ starts 1),
        returnsNil (s.calls.threads 1).main = true ∧ s.stored 1 = false ∧
        (s.calls.threads 1).background.map (·.1) = some certRecord ∧
        (certificateOf s.calls.world 1).map (·.status) = some "valid" := by
    decide +kernel
  obtain ⟨hnil, hstored, hbackground, hvalid⟩ := hend s hrun
  obtain ⟨⟨record, st⟩, hbackground, hrecord⟩ :=
    Option.map_eq_some_iff.mp hbackground
  obtain rfl : record = certRecord := hrecord
  obtain ⟨c, hc, hstatus⟩ := Option.map_eq_some_iff.mp hvalid
  refine ⟨s, _, st, c, hrun, returned_of_returnsNil hnil, hbackground, hstored,
    hc, hstatus, fun hshown => ?_⟩
  obtain ⟨c', hc', hpending⟩ := hshown 1 _ _ hbackground hstored
  obtain rfl : c' = c := Option.some.inj (hc'.symm.trans hc)
  rw [hstatus] at hpending
  exact absurd hpending (by decide)

end Hdns.Ports.PendingStatus

import Hdns.Ports.Issuances

/-!
# Certificates of records that are edited

A save stores the record and then starts an issuance for it, which works on the
record as it is read before the slot is reserved.  This module follows one
record through the machine of concurrent issuances and saves: which snapshot
the issuance in flight works on, and whether a save has stored new names but
has not got to its reservation yet.

## Main results

* `stage_effect` — what a stage of an issuance does to the certificate rows.
* `Upholds`, `upholds_step` — unless a save is on its way to its reservation,
  the issuance in flight has the stored names, and a row that is not being
  issued has them.
* `edited_record_matches_its_certificate` — when nothing runs, the row has the
  names of the record, if each reservation leaves the slot to an issuance with
  the names stored then.
-/

namespace Hdns.Ports.CertificateEdits

open Hdns.Verified
open Hdns.Verified.GoString
open Hdns.Ports.Schema
open Hdns.Ports.UpdateAddress
open Hdns.Ports.Hetzner
open Hdns.Ports.Service
open Hdns.Ports.Names
open Hdns.Ports.Records
open Hdns.Ports.Certificates
open Hdns.Ports.IssuanceSteps
open Hdns.Ports.Issuances

/-! ## Certificate rows -/

/-- The `domains` column an issuance for the record stores. -/
def domainsOf (record : Record) : GoString := joinDomains (buildDomains record)

/-- The row `GetCertificateByRecord` reads. -/
def certificateOf (w : World) (recordID : Int) : Option Certificate :=
  w.certificates.rows.find? fun c => c.recordID == recordID

theorem certificateOf_spec {w : World} {recordID : Int} {c : Certificate}
    (h : certificateOf w recordID = some c) :
    c ∈ w.certificates.rows ∧ c.recordID = recordID :=
  ⟨List.mem_of_find?_eq_some h, by simpa using List.find?_some h⟩

/-- The row of the record has its names. -/
def Matches (w : World) (record : Record) : Prop :=
  ∃ c, certificateOf w record.id = some c ∧ c.domains = domainsOf record

instance (w : World) (record : Record) : Decidable (Matches w record) :=
  decidable_of_iff ((certificateOf w record.id).map (·.domains) =
    some (domainsOf record)) Option.map_eq_some_iff

/-- What an issuance for `record` that stands at a stage relies on. -/
def Sane (w : World) (record : Record) : Stage → Prop
  | .createJob certID => (certificateOf w record.id).map (·.id) = some certID
  | .obtain certID _ => (certificateOf w record.id).map (·.id) = some certID
  | .files certID _ _ => (certificateOf w record.id).map (·.id) = some certID
  | .update certID _ p =>
      (certificateOf w record.id).map (·.id) = some certID ∧
        p.domains = domainsOf record
  | .finishSucceeded _ => Matches w record
  | .fire _ => Matches w record
  | .ended (.ok ()) => Matches w record
  | _ => True

/-- The issuance is about to fail. -/
def failing : Stage → Bool
  | .setFailed _ _ _ => true
  | .finishFailed _ _ => true
  | .ended (.error _) => true
  | _ => false

/-- What an issuance relies on is about its own certificate row. -/
theorem Sane.congr {w w' : World} {record : Record} {st : Stage}
    (hrow : certificateOf w' record.id = certificateOf w record.id)
    (h : Sane w record st) : Sane w' record st := by
  unfold Sane Matches at h ⊢
  rw [hrow]
  exact h

/-- **What a stage does**: slots and records stay, no row of another record
changes, and the next stage finds what it relies on. -/
structure StageEffect (w w' : World) (record : Record) (st' : Stage) :
    Prop where
  pending : w'.pending = w.pending
  records : ∀ id, (w'.records.find? id).map savedColumns =
    (w.records.find? id).map savedColumns
  others : ∀ id, id ≠ record.id → certificateOf w' id = certificateOf w id
  sane : Sane w' record st'

theorem certificateOf_aside {w w' : World} (h : Aside w w') (id : Int) :
    certificateOf w' id = certificateOf w id := by
  rw [certificateOf, certificateOf, h.certificates]

/-- A stage whose statement leaves the rows alone. -/
theorem StageEffect.aside {w w' : World} {record : Record} {st' : Stage}
    (h : Aside w w') (hsane : Sane w record st') :
    StageEffect w w' record st' where
  pending := h.pending
  records := h.records
  others := fun id _ => certificateOf_aside h id
  sane := hsane.congr (certificateOf_aside h record.id)

/-- What a statement on the certificate rows of one record leaves alone. -/
structure RowEffect (recordID : Int) (w w' : World) : Prop where
  pending : w'.pending = w.pending
  records : w'.records = w.records
  others : ∀ id, id ≠ recordID → certificateOf w' id = certificateOf w id

theorem RowEffect.refl (recordID : Int) (w : World) : RowEffect recordID w w :=
  ⟨rfl, rfl, fun _ _ => rfl⟩

/-- The row `CreateCertificate` inserts is the record's, and no other record's
row changes. -/
theorem createCertificate_effect (o : Oracle Call) (s : Sys World)
    (recordID : Int) (domains status : GoString) :
    (createCertificate recordID domains status).wp o s fun r t =>
      RowEffect recordID s.state t.state ∧ ∀ certID, r = .ok certID →
        (certificateOf t.state recordID).map (·.id) = some certID := by
  refine Prog.wp_mono (createCertificate_spec o recordID domains status s) ?_
  rintro r ⟨w', n⟩ ⟨hcreated, hok⟩
  constructor
  · cases hcreated with
    | kept => exact .refl _ _
    | burned => exact ⟨rfl, rfl, fun _ _ => rfl⟩
    | inserted =>
        refine ⟨rfl, rfl, fun id hid => ?_⟩
        simp [certificateOf, List.find?_append, Ne.symm hid]
  · intro certID hid
    obtain ⟨rfl, hnone, rfl⟩ := hok certID hid
    simp [certificateInserted, certificateOf, List.find?_append, hnone]

/-- `UpdateCertificate` on the row of a record changes no other record's
row. -/
theorem updateCertificate_effect (o : Oracle Call) (s : Sys World)
    {recordID certID : Int} (p : CertificateParams)
    (hrow : (certificateOf s.state recordID).map (·.id) = some certID) :
    (updateCertificate certID p).wp o s fun r t =>
      RowEffect recordID s.state t.state ∧ (r = .ok () →
        ∃ c, certificateOf t.state recordID = some c ∧
          c.domains = p.domains) := by
  obtain ⟨c, hc, rfl⟩ := Option.map_eq_some_iff.mp hrow
  obtain ⟨hmem, hrecord⟩ := certificateOf_spec hc
  have hcert : ∀ id, certificateOf { s.state with
      certificates := s.state.certificates.updateWhere (fun x => x.id == c.id)
        p.apply } id =
      (certificateOf s.state id).map fun x =>
        if x.id == c.id then p.apply x else x := by
    intro id
    exact s.state.certificates.rows_find?_updateWhere (fun x => x.id == c.id)
      p.apply (fun _ => rfl) fun _ => rfl
  have hupdate : RowEffect recordID s.state { s.state with
      certificates := s.state.certificates.updateWhere (fun x => x.id == c.id)
        p.apply } := by
    refine ⟨rfl, rfl, fun id hid => ?_⟩
    rw [hcert id]
    cases hx : certificateOf s.state id with
    | none => rfl
    | some x =>
        obtain ⟨hxmem, hxrecord⟩ := certificateOf_spec hx
        have hne : x.id ≠ c.id := by
          intro heq
          have hsame : x = c := List.inj_on_of_nodup_map
            s.state.certificates.distinct hxmem hmem heq
          exact hid (hxrecord.symm.trans ((congrArg _ hsame).trans hrecord))
        simp [hne]
  unfold updateCertificate
  refine Prog.wp_call_of ?_ (fun _ => ⟨.refl _ _, by rintro ⟨⟩⟩) fun _ => ?_
  · split
    · next hnone =>
        have hfind := Table.find?_of_mem hmem
        simp [Row.key] at hfind
        simp [hfind] at hnone
    · split
      · exact ⟨.refl _ _, by rintro ⟨⟩⟩
      · refine ⟨hupdate, fun _ => ⟨p.apply c, ?_, rfl⟩⟩
        rw [hcert, hc]
        simp
  · split
    · exact ⟨.refl _ _, by rintro ⟨⟩⟩
    · split
      · exact ⟨.refl _ _, by rintro ⟨⟩⟩
      · exact ⟨hupdate, by rintro ⟨⟩⟩

/-- Events are no part of it. -/
theorem RowEffect.logged {recordID : Int} {w w' : World} {e : Event}
    (h : RowEffect recordID w w') : RowEffect recordID w (w'.log e) :=
  ⟨h.pending, h.records, h.others⟩

theorem RowEffect.stage {w w' : World} {record : Record} {st' : Stage}
    (h : RowEffect record.id w w') (hsane : Sane w' record st') :
    StageEffect w w' record st' where
  pending := h.pending
  records := fun id => by rw [h.records]
  others := h.others
  sane := hsane

private theorem wp_attempt_bind {α β : Type} {o : Oracle Call} {s : Sys World}
    {p : Handler α} {f : Except GoError α → Handler β}
    {Q : Except GoError β → Sys World → Prop}
    (h : p.wp o s fun r t => (f r).wp o t Q) : (p.attempt >>= f).wp o s Q :=
  (Prog.wp_bind _ _ _).mpr h

private theorem wp_mapError_of {α : Type} {o : Oracle Call} {s : Sys World}
    {p : Handler α} {f : GoError → GoError}
    {Q : Except GoError α → Sys World → Prop}
    (h : p.wp o s fun r t => Q (r.mapError f) t) : (p.mapError f).wp o s Q := h

/-- A statement of `ensureCertificateRow` reports the row of the record. -/
theorem ensure_effect (o : Oracle Call) (s : Sys World) (record : Record)
    (e : Ensure) :
    (e.next record).wp o s fun r t => RowEffect record.id s.state t.state ∧
      ∀ certID, r = .ok (.inr (.ok certID)) →
        (certificateOf t.state record.id).map (·.id) = some certID := by
  cases e with
  | find =>
      refine wp_attempt_bind (Prog.wp_query_of ?_ ?_)
      · cases hrow : certificateOf s.state record.id with
        | none =>
            have hread := hrow
            rw [certificateOf] at hread
            simp only [hread]
            exact ⟨.refl _ _, nofun⟩
        | some c =>
            have hread := hrow
            rw [certificateOf] at hread
            simp only [hread]
            refine ⟨.refl _ _, fun certID hid => ?_⟩
            obtain rfl : c.id = certID :=
              Except.ok.inj (Sum.inr.inj (Except.ok.inj hid))
            exact congrArg (Option.map (·.id)) hrow
      · exact ⟨.refl _ _, nofun⟩
  | create =>
      refine wp_attempt_bind (wp_mapError_of (Prog.wp_mono
        (createCertificate_effect o s record.id _ _) ?_))
      intro r t heffect
      refine ⟨heffect.1, fun certID hid => heffect.2 certID ?_⟩
      cases r with
      | error err => cases hid
      | ok id => exact Sum.inr.inj (Except.ok.inj hid)

/-- The columns to store have the names of the record. -/
theorem storeFiles_returns (env : Env) (o : Oracle Call) (record : Record)
    (res : Resource) :
    Prog.Returns o (fun p => p.domains = domainsOf record)
      (storeFiles env record res) :=
  .bind_any fun _ => .bind_any fun _ => .pure rfl

/-- **What a stage does**, whatever goes wrong. -/
theorem stage_effect (env : Env) (o : Oracle Call) (s : Sys World)
    (record : Record) (source : IssuanceSource) {st : Stage}
    (hsane : Sane s.state record st) (hok : failing st = false) :
    (st.next env record source).wp o s fun r t => ∀ st', r = .ok st' →
      StageEffect s.state t.state record st' := by
  cases st with
  | ensure e =>
      refine (Prog.wp_bind _ _ _).mpr (Prog.wp_mono
        (ensure_effect o s record e) ?_)
      rintro (err | e' | err | certID) t heffect
      · exact fun st' hst' => nomatch hst'
      · intro st' hst'
        cases hst'
        exact heffect.1.stage trivial
      · intro st' hst'
        cases hst'
        exact heffect.1.stage trivial
      · intro st' hst'
        cases hst'
        exact heffect.1.stage (heffect.2 certID rfl)
  | createJob certID =>
      refine wp_attempt_bind (wp_mapError_of (Prog.wp_mono
        (createCertificateJob_aside env record.id certID source s) ?_))
      intro r t haside st' hst'
      cases r with
      | error err => cases hst'; exact .aside haside trivial
      | ok jobID => cases hst'; exact .aside haside hsane
  | obtain certID jobID =>
      rw [Stage.next]
      split
      · intro st' hst'
        cases hst'
        exact .aside (.refl _) hsane
      · intro st' hst'
        cases hst'
        exact .aside (.refl _) trivial
  | files certID jobID res =>
      have haside := storeFiles_aside (o := o) env record res s
      have hdomains := storeFiles_returns env o record res s
      refine wp_attempt_bind (Prog.wp_mono (Prog.wp_and haside hdomains) ?_)
      intro r t hstored st' hst'
      cases r with
      | error err => cases hst'; exact .aside hstored.1 trivial
      | ok p => cases hst'; exact .aside hstored.1 ⟨hsane, hstored.2 p rfl⟩
  | update certID jobID p =>
      refine wp_attempt_bind (wp_mapError_of (Prog.wp_mono
        (updateCertificate_effect o s p hsane.1) ?_))
      intro r t heffect st' hst'
      cases r with
      | error err => cases hst'; exact heffect.1.stage trivial
      | ok _ =>
          cases hst'
          obtain ⟨c, hc, hdomains⟩ := heffect.2 rfl
          exact heffect.1.stage ⟨c, hc, hdomains.trans hsane.2⟩
  | setFailed certID jobID cause => cases hok
  | finishFailed jobID cause => cases hok
  | finishSucceeded jobID =>
      refine (Prog.wp_bind _ _ _).mpr (Prog.wp_mono
        (finishCertificateJob_aside env jobID "success" none s) ?_)
      intro r t haside
      cases r with
      | error err => exact fun st' hst' => nomatch hst'
      | ok _ =>
          intro st' hst'
          cases hst'
          exact .aside haside hsane
  | fire jobID =>
      refine wp_attempt_bind (Prog.wp_mono
        (fireTasks_aside env record.id triggerCert (some jobID) s) ?_)
      intro r t haside st' hst'
      cases r with
      | error err => cases hst'; exact .aside haside trivial
      | ok _ => cases hst'; exact .aside haside hsane
  | ended r =>
      intro st' hst'
      cases hst'
      exact .aside (.refl _) hsane

/-! ## Saves and issuances of one record -/

/-- The record a call holds the slot for, and the stage its issuance stands at;
a `StartIssuance` prepares like an issuance that has just begun. -/
def holdingPc : Pc → Option (Record × Stage)
  | .prepare record e _ => some (record, .ensure e)
  | .issuing record _ st _ => some (record, st)
  | _ => none

/-- The same for a thread with its background goroutine. -/
def holding (t : Thread) : Option (Record × Stage) :=
  match t.background with
  | some b => some b
  | none => holdingPc t.main

/-- A save has stored the record and has not got to its reservation. -/
def unsettled (recordID : Int) : Pc → Prop
  | .saveBack id => id = recordID
  | .saveRefresh record => record.id = recordID
  | .saveIssue record => record.id = recordID
  | .start id (.save _) => id = recordID
  | .startReserve record (.save _) => record.id = recordID
  | _ => False

/-- A save that has read the record back. -/
def carries (recordID : Int) : Pc → Prop
  | .saveBack _ => False
  | pc => unsettled recordID pc

/-- A `StartIssuance` whose preparation has failed. -/
def aborting : Pc → Bool
  | .abort _ _ _ => true
  | _ => false

/-- Nothing has failed: no preparation and no issuance. -/
def Healthy (t : Thread) : Prop :=
  aborting t.main = false ∧ ∀ x ∈ holding t, failing x.2 = false

instance (t : Thread) : Decidable (Healthy t) :=
  inferInstanceAs (Decidable (_ ∧ _))

/-- The record a call carries to its reservation is one for certificates. -/
def Ready (recordID : Int) : Pc → Prop
  | .saveRefresh record =>
      record.id = recordID → recordDoesCert record.purpose = true
  | .saveIssue record =>
      record.id = recordID → recordDoesCert record.purpose = true
  | .startReserve record _ =>
      record.id = recordID → recordDoesCert record.purpose = true
  | _ => True

/-- The stored record, if there is one, has the names of the snapshot. -/
def SameNames (w : World) (recordID : Int) (snapshot : Record) : Prop :=
  ∀ record ∈ w.records.find? recordID, domainsOf record = domainsOf snapshot

instance (w : World) (recordID : Int) (snapshot : Record) :
    Decidable (SameNames w recordID snapshot) :=
  inferInstanceAs (Decidable (∀ record ∈ _, _))

/-- The row of the stored record, if there is one, has its names. -/
def Current (w : World) (recordID : Int) : Prop :=
  ∀ record ∈ w.records.find? recordID, Matches w record

instance (w : World) (recordID : Int) : Decidable (Current w recordID) :=
  inferInstanceAs (Decidable (∀ record ∈ _, _))

/-- The record is one for certificates. -/
def ForCertificates (w : World) (recordID : Int) : Prop :=
  ∀ record ∈ w.records.find? recordID, recordDoesCert record.purpose = true

instance (w : World) (recordID : Int) :
    Decidable (ForCertificates w recordID) :=
  inferInstanceAs (Decidable (∀ record ∈ _, _))

/-- No save of the record is on its way to its reservation. -/
def Settled (recordID : Int) (s : State) : Prop :=
  ∀ i, ¬unsettled recordID (s.threads i).main

/-- **The invariant.**  Unless a save of the record is on its way to its
reservation, the issuance that holds the slot has the stored names, and with
the slot free the row has them. -/
structure Upholds (recordID : Int) (s : State) : Prop where
  exclusive : Exclusive s
  purpose : ForCertificates s.world recordID
  healthy : ∀ i, Healthy (s.threads i)
  sane : ∀ i record st, holding (s.threads i) = some (record, st) →
    Sane s.world record st
  ready : ∀ i, Ready recordID (s.threads i).main
  stored : ∀ i, carries recordID (s.threads i).main →
    (s.world.records.find? recordID).isSome
  snapshot : Settled recordID s → ∀ i record st,
    holding (s.threads i) = some (record, st) → record.id = recordID →
      SameNames s.world recordID record
  current : Settled recordID s → s.world.pending recordID = false →
    Current s.world recordID

section Congruence

variable {w w' : World} {id : Int}

/-- The record a world stores is the one another world stores but for its
address. -/
private theorem stored_of_saved
    (h : (w'.records.find? id).map savedColumns =
      (w.records.find? id).map savedColumns) {record' : Record}
    (hrecord : w'.records.find? id = some record') :
    ∃ record, w.records.find? id = some record ∧
      savedColumns record' = savedColumns record := by
  rw [hrecord, Option.map_some] at h
  obtain ⟨record, hfind, hsaved⟩ := Option.map_eq_some_iff.mp h.symm
  exact ⟨record, hfind, hsaved.symm⟩

private theorem domainsOf_saved {record record' : Record}
    (h : savedColumns record' = savedColumns record) :
    domainsOf record' = domainsOf record := by
  change domainsOf (savedColumns record') = domainsOf (savedColumns record)
  rw [h]

theorem SameNames.congr {snapshot : Record}
    (hrecords : (w'.records.find? id).map savedColumns =
      (w.records.find? id).map savedColumns)
    (h : SameNames w id snapshot) : SameNames w' id snapshot := by
  intro record' hrecord'
  obtain ⟨record, hrecord, hsaved⟩ := stored_of_saved hrecords hrecord'
  exact (domainsOf_saved hsaved).trans (h record hrecord)

theorem ForCertificates.congr
    (hrecords : (w'.records.find? id).map savedColumns =
      (w.records.find? id).map savedColumns)
    (h : ForCertificates w id) : ForCertificates w' id := by
  intro record' hrecord'
  obtain ⟨record, hrecord, hsaved⟩ := stored_of_saved hrecords hrecord'
  change recordDoesCert (savedColumns record').purpose = true
  rw [hsaved]
  exact h record hrecord

theorem Current.congr
    (hrecords : (w'.records.find? id).map savedColumns =
      (w.records.find? id).map savedColumns)
    (hrow : certificateOf w' id = certificateOf w id) (h : Current w id) :
    Current w' id := by
  intro record' hrecord'
  obtain ⟨record, hrecord, hsaved⟩ := stored_of_saved hrecords hrecord'
  obtain ⟨c, hc, hdomains⟩ := h record hrecord
  have hid : record.id = id := Table.find?_key hrecord
  have hid' : record'.id = id := Table.find?_key hrecord'
  refine ⟨c, ?_, hdomains.trans (domainsOf_saved hsaved).symm⟩
  rw [hid', hrow, ← hid]
  exact hc

private theorem isSome_of_saved
    (h : (w'.records.find? id).map savedColumns =
      (w.records.find? id).map savedColumns)
    (hsome : (w.records.find? id).isSome) :
    (w'.records.find? id).isSome := by
  have hmap := congrArg Option.isSome h
  simpa only [Option.isSome_map, hsome] using hmap

end Congruence

/-! ## What a statement does -/

/-- The record a call is about to reserve the slot of. -/
def reserving : Pc → Option Record
  | .startReserve record _ => some record
  | .reserve record _ _ => some record
  | _ => none

/-- **What a statement of a thread does to the record `recordID`.** -/
inductive Effect (recordID : Int) (w w' : World) (t t' : Thread) : Prop where
  | beside (haside : Aside w w') (hholding : holding t' = holding t)
      (hunsettled : unsettled recordID t'.main ↔ unsettled recordID t.main)
      (hcarries : carries recordID t'.main →
        (w.records.find? recordID).isSome)
      (hready : Ready recordID t'.main)
  /-- A save stores the record `id`. -/
  | stores (id : Int) (hpending : w'.pending = w.pending)
      (hcerts : w'.certificates = w.certificates)
      (hothers : ∀ i, i ≠ id → w'.records.find? i = w.records.find? i)
      (hkept : (w.records.find? recordID).isSome →
        (w'.records.find? recordID).isSome)
      (hpurpose : id = recordID → ForCertificates w' recordID)
      (hnone : holding t = none) (hnone' : holding t' = none)
      (hmain : t'.main = .saveBack id)
      (hsettled : ¬unsettled recordID t.main)
  /-- A reservation is refused. -/
  | refuses (record : Record) (hw : w' = w)
      (hreserving : reserving t.main = some record)
      (hrecord : unsettled recordID t.main →
        record.id = recordID ∧ w.pending recordID = true)
      (hnone : holding t = none) (hnone' : holding t' = none)
      (hsettled : ¬unsettled recordID t'.main)
      (hready : Ready recordID t'.main)
  /-- A reservation succeeds. -/
  | takes (record : Record)
      (hw : w' = setSlot w record.id true)
      (hreserving : reserving t.main = some record)
      (hrecord : unsettled recordID t.main → record.id = recordID)
      (hnone : holding t = none)
      (hholding : holding t' = some (record, .first))
      (hsettled : ¬unsettled recordID t'.main)
      (hready : Ready recordID t'.main)
  /-- An issuance or its preparation goes on. -/
  | works (record : Record) (st st' : Stage)
      (hholding : holding t = some (record, st))
      (hholding' : holding t' = some (record, st'))
      (heffect : StageEffect w w' record st')
      (hsettled : ¬unsettled recordID t.main)
      (hsettled' : ¬unsettled recordID t'.main)
      (hready : Ready recordID t'.main)
  /-- An issuance has ended and gives its slot back. -/
  | gives (record : Record) (r : Except GoError Unit)
      (hw : w' = setSlot w record.id false)
      (hholding : holding t = some (record, .ended r))
      (hnone' : holding t' = none)
      (hsettled : ¬unsettled recordID t.main)
      (hsettled' : ¬unsettled recordID t'.main)
      (hready : Ready recordID t'.main)

theorem slot_of_holding {t : Thread} {record : Record} {st : Stage}
    (h : holding t = some (record, st)) : t.slot = some record.id := by
  obtain ⟨pc, background⟩ := t
  cases background with
  | some b => cases h; rfl
  | none =>
      cases pc with
      | prepare r e k => cases h; rfl
      | issuing r source st k => cases h; rfl
      | _ => cases h

theorem unsettled_of_carries {recordID : Int} {pc : Pc}
    (h : carries recordID pc) : unsettled recordID pc := by
  cases pc <;> first | exact h | exact h.elim

/-- Two threads never hold the slot of one record. -/
theorem Upholds.holder {recordID : Int} {s : State} (h : Upholds recordID s)
    {i j : Nat} {record record' : Record} {st st' : Stage}
    (hi : holding (s.threads i) = some (record, st))
    (hj : holding (s.threads j) = some (record', st'))
    (hid : record'.id = record.id) : j = i := by
  have hi' := (h.exclusive.held _ _).mpr (slot_of_holding hi)
  have hj' := (h.exclusive.held _ _).mpr (slot_of_holding hj)
  rw [hid, hi'] at hj'
  exact (Option.some.inj hj').symm

section Moved

variable {recordID : Int} {s : State} {i : Nat} {w : World} {t : Thread}

private theorem settled_moved :
    Settled recordID (s.moved i w t) ↔ ¬unsettled recordID t.main ∧
      ∀ j, j ≠ i → ¬unsettled recordID (s.threads j).main :=
  Pool.forall_set (P := fun _ (t : Thread) => ¬unsettled recordID t.main)
    s.threads i t

/-- The move leaves no save on its way where there was none, and the thread
was not on its way itself. -/
private theorem settled_of_moved (h : Settled recordID (s.moved i w t))
    (hi : ¬unsettled recordID (s.threads i).main) : Settled recordID s := by
  intro j
  by_cases hj : j = i
  · rw [hj]; exact hi
  · exact (settled_moved.mp h).2 j hj

/-- The invariant after a move, from what it says about the thread that has
moved and about the others. -/
theorem Upholds.moved_of (h : Upholds recordID s)
    (hexclusive : Exclusive (s.moved i w t)) (hhealthy : Healthy t)
    (hpurpose : ForCertificates w recordID) (hready : Ready recordID t.main)
    (hsane : ∀ record st, holding t = some (record, st) → Sane w record st)
    (hsanes : ∀ j, j ≠ i → ∀ record st,
      holding (s.threads j) = some (record, st) → Sane w record st)
    (hstored : carries recordID t.main →
      (w.records.find? recordID).isSome)
    (hstoreds : (s.world.records.find? recordID).isSome →
      (w.records.find? recordID).isSome)
    (hsnapshot : Settled recordID (s.moved i w t) → ∀ record st,
      holding t = some (record, st) → record.id = recordID →
        SameNames w recordID record)
    (hsnapshots : Settled recordID (s.moved i w t) → ∀ j, j ≠ i →
      ∀ record st, holding (s.threads j) = some (record, st) →
        record.id = recordID → SameNames w recordID record)
    (hcurrent : Settled recordID (s.moved i w t) →
      w.pending recordID = false → Current w recordID) :
    Upholds recordID (s.moved i w t) where
  exclusive := hexclusive
  purpose := hpurpose
  healthy := (Pool.forall_set (P := fun _ t => Healthy t) _ _ _).mpr
    ⟨hhealthy, fun j _ => h.healthy j⟩
  sane := (Pool.forall_set (P := fun _ t => ∀ record st,
    holding t = some (record, st) → Sane w record st) _ _ _).mpr
    ⟨hsane, hsanes⟩
  ready := (Pool.forall_set (P := fun _ (t : Thread) =>
    Ready recordID t.main) _ _ _).mpr ⟨hready, fun j _ => h.ready j⟩
  stored := (Pool.forall_set (P := fun _ (t : Thread) =>
    carries recordID t.main → (w.records.find? recordID).isSome) _ _ _).mpr
    ⟨hstored, fun j _ hj => hstoreds (h.stored j hj)⟩
  snapshot := fun hsettled => (Pool.forall_set (P := fun _ t => ∀ record st,
    holding t = some (record, st) → record.id = recordID →
      SameNames w recordID record) _ _ _).mpr
    ⟨hsnapshot hsettled, hsnapshots hsettled⟩
  current := hcurrent

theorem Upholds.beside (h : Upholds recordID s)
    (hexclusive : Exclusive (s.moved i w t)) (hhealthy : Healthy t)
    (haside : Aside s.world w) (hholding : holding t = holding (s.threads i))
    (hunsettled : unsettled recordID t.main ↔
      unsettled recordID (s.threads i).main)
    (hcarries : carries recordID t.main →
      (s.world.records.find? recordID).isSome)
    (hready : Ready recordID t.main) : Upholds recordID (s.moved i w t) := by
  have hrecords := haside.records recordID
  have hcerts := certificateOf_aside haside
  have hback : Settled recordID (s.moved i w t) → Settled recordID s :=
    fun hsettled => settled_of_moved hsettled
      (mt hunsettled.mpr (settled_moved.mp hsettled).1)
  refine h.moved_of hexclusive hhealthy (h.purpose.congr hrecords) hready
    ?_ ?_ ?_ (isSome_of_saved hrecords) ?_ ?_ ?_
  · intro record st hst
    exact (h.sane i record st (hholding ▸ hst)).congr (hcerts record.id)
  · exact fun j _ record st hst =>
      (h.sane j record st hst).congr (hcerts record.id)
  · exact fun ht => isSome_of_saved hrecords (hcarries ht)
  · intro hsettled record st hst hid
    exact (h.snapshot (hback hsettled) i record st (hholding ▸ hst) hid).congr
      hrecords
  · exact fun hsettled j _ record st hst hid =>
      (h.snapshot (hback hsettled) j record st hst hid).congr hrecords
  · intro hsettled hfree
    rw [haside.pending] at hfree
    exact (h.current (hback hsettled) hfree).congr hrecords (hcerts recordID)

theorem Upholds.stores (h : Upholds recordID s)
    (hexclusive : Exclusive (s.moved i w t)) (hhealthy : Healthy t) {id : Int}
    (hpending : w.pending = s.world.pending)
    (hcerts : w.certificates = s.world.certificates)
    (hothers : ∀ i, i ≠ id →
      w.records.find? i = s.world.records.find? i)
    (hkept : (s.world.records.find? recordID).isSome →
      (w.records.find? recordID).isSome)
    (hpurpose : id = recordID → ForCertificates w recordID)
    (hnone' : holding t = none) (hmain : t.main = .saveBack id)
    (hsettled : ¬unsettled recordID (s.threads i).main) :
    Upholds recordID (s.moved i w t) := by
  have hrows : ∀ id, certificateOf w id = certificateOf s.world id := by
    intro id
    rw [certificateOf, certificateOf, hcerts]
  have hother : ¬unsettled recordID t.main →
      w.records.find? recordID = s.world.records.find? recordID := by
    intro hne
    rw [hmain] at hne
    exact hothers recordID (Ne.symm hne)
  refine h.moved_of hexclusive hhealthy ?_ (by rw [hmain]; trivial)
    (by simp [hnone']) (fun j _ record st hst =>
      (h.sane j record st hst).congr (hrows record.id)) ?_ hkept
    (by simp [hnone']) ?_ ?_
  · by_cases hid : id = recordID
    · exact hpurpose hid
    · exact h.purpose.congr (by rw [hothers recordID (Ne.symm hid)])
  · intro ht
    rw [hmain] at ht
    exact ht.elim
  · intro hset j hj record st hst hid
    have hrecords := hother (settled_moved.mp hset).1
    exact (h.snapshot (settled_of_moved hset hsettled) j record st hst
      hid).congr (by rw [hrecords])
  · intro hset hfree
    have hrecords := hother (settled_moved.mp hset).1
    rw [hpending] at hfree
    exact (h.current (settled_of_moved hset hsettled) hfree).congr
      (by rw [hrecords]) (hrows recordID)

/-- Thread `i` has got to its reservation. -/
def Reserves (recordID : Int) (s : State) (i : Nat) : Prop :=
  ∃ record, reserving (s.threads i).main = some record ∧ record.id = recordID

/-- The issuance that owns the slot, if there is one, has the stored names. -/
def OwnerFresh (recordID : Int) (s : State) : Prop :=
  ∀ j ∈ s.owner recordID, ∀ x ∈ holding (s.threads j),
    SameNames s.world recordID x.1

instance (recordID : Int) (s : State) : Decidable (OwnerFresh recordID s) :=
  inferInstanceAs (Decidable (∀ j ∈ _, ∀ x ∈ _, _))

/-- The reservation of thread `i` leaves the slot of the record to an issuance
with the names stored then. -/
def FreshAt (recordID : Int) (s s' : State) (i : Nat) : Prop :=
  Reserves recordID s i → Settled recordID s' → OwnerFresh recordID s'

/-- What holds the slot of the record after a fresh reservation. -/
private theorem FreshAt.names {recordID : Int} {s s' : State} {i : Nat}
    {record : Record} (h : FreshAt recordID s s' i) (hexclusive : Exclusive s')
    (hreserving : reserving (s.threads i).main = some record)
    (hrecord : record.id = recordID) (hset : Settled recordID s') (j : Nat)
    (snapshot : Record) (st : Stage)
    (hst : holding (s'.threads j) = some (snapshot, st))
    (hid : snapshot.id = recordID) : SameNames s'.world recordID snapshot := by
  have howner := (hexclusive.held snapshot.id j).mpr (slot_of_holding hst)
  rw [hid] at howner
  exact h ⟨record, hreserving, hrecord⟩ hset j howner (snapshot, st) hst

theorem Upholds.refuses (h : Upholds recordID s)
    (hexclusive : Exclusive (s.moved i s.world t)) (hhealthy : Healthy t)
    (hfresh : FreshAt recordID s (s.moved i s.world t) i) {record : Record}
    (hreserving : reserving (s.threads i).main = some record)
    (hrecord : unsettled recordID (s.threads i).main →
      record.id = recordID ∧ s.world.pending recordID = true)
    (hnone' : holding t = none) (hsettled : ¬unsettled recordID t.main)
    (hready : Ready recordID t.main) :
    Upholds recordID (s.moved i s.world t) := by
  refine h.moved_of hexclusive hhealthy h.purpose hready (by simp [hnone'])
    (fun j _ => h.sane j) (fun ht => absurd (unsettled_of_carries ht) hsettled)
    id
    (by simp [hnone']) ?_ ?_
  · intro hset j hj snapshot st hst hid
    by_cases hi : unsettled recordID (s.threads i).main
    · -- a save was refused: what holds the slot is fresh
      refine hfresh.names hexclusive hreserving (hrecord hi).1 hset j
        snapshot st ?_ hid
      rw [moved_ne s _ t hj]
      exact hst
    · exact h.snapshot (settled_of_moved hset hi) j snapshot st hst hid
  · intro hset hfree
    by_cases hi : unsettled recordID (s.threads i).main
    · rw [(hrecord hi).2] at hfree
      cases hfree
    · exact h.current (settled_of_moved hset hi) hfree

theorem Upholds.takes (h : Upholds recordID s) {record : Record}
    (hw : w = setSlot s.world record.id true)
    (hexclusive : Exclusive (s.moved i w t)) (hhealthy : Healthy t)
    (hfresh : FreshAt recordID s (s.moved i w t) i)
    (hreserving : reserving (s.threads i).main = some record)
    (hrecord : unsettled recordID (s.threads i).main → record.id = recordID)
    (hholding : holding t = some (record, .first))
    (hsettled : ¬unsettled recordID t.main) (hready : Ready recordID t.main) :
    Upholds recordID (s.moved i w t) := by
  subst hw
  refine h.moved_of hexclusive hhealthy h.purpose hready ?_
    (fun j _ => h.sane j) (fun ht => absurd (unsettled_of_carries ht) hsettled)
    id ?_ ?_ ?_
  · intro r st hst
    rw [hholding] at hst
    cases hst
    trivial
  · intro hset r st hst hid
    rw [hholding] at hst
    cases hst
    refine hfresh.names hexclusive hreserving hid hset i record .first ?_
      hid
    rw [moved_self]
    exact hholding
  · intro hset j hj snapshot st hst hid
    by_cases hmine : record.id = recordID
    · refine hfresh.names hexclusive hreserving hmine hset j snapshot st
        ?_ hid
      rw [moved_ne s _ t hj]
      exact hst
    · exact h.snapshot (settled_of_moved hset (mt hrecord hmine)) j snapshot st
        hst hid
  · intro hset hfree
    by_cases hmine : recordID = record.id
    · subst hmine
      rw [setSlot_pending, withSlot_self] at hfree
      cases hfree
    · rw [setSlot_pending, withSlot_ne _ _ hmine] at hfree
      exact h.current
        (settled_of_moved hset (mt hrecord (Ne.symm hmine))) hfree

theorem Upholds.works (h : Upholds recordID s)
    (hexclusive : Exclusive (s.moved i w t)) (hhealthy : Healthy t)
    {record : Record} {st st' : Stage}
    (hholding : holding (s.threads i) = some (record, st))
    (hholding' : holding t = some (record, st'))
    (heffect : StageEffect s.world w record st')
    (hsettled : ¬unsettled recordID (s.threads i).main)
    (hsettled' : ¬unsettled recordID t.main) (hready : Ready recordID t.main) :
    Upholds recordID (s.moved i w t) := by
  have hrecords := heffect.records recordID
  refine h.moved_of hexclusive hhealthy (h.purpose.congr hrecords) hready
    ?_ ?_ (fun ht => absurd (unsettled_of_carries ht) hsettled')
    (isSome_of_saved hrecords) ?_ ?_ ?_
  · intro r x hx
    rw [hholding'] at hx
    cases hx
    exact heffect.sane
  · intro j hj r x hx
    have hne : r.id ≠ record.id := fun hid => hj (h.holder hholding hx hid)
    exact (h.sane j r x hx).congr (heffect.others r.id hne)
  · intro hset r x hx hid
    rw [hholding'] at hx
    cases hx
    exact (h.snapshot (settled_of_moved hset hsettled) i record st hholding
      hid).congr hrecords
  · exact fun hset j _ r x hx hid =>
      (h.snapshot (settled_of_moved hset hsettled) j r x hx hid).congr hrecords
  · intro hset hfree
    rw [heffect.pending] at hfree
    have hne : recordID ≠ record.id := by
      rintro rfl
      have hheld := (h.exclusive.held _ _).mpr (slot_of_holding hholding)
      rw [(h.exclusive.taken _).mpr ⟨i, hheld⟩] at hfree
      cases hfree
    exact (h.current (settled_of_moved hset hsettled) hfree).congr hrecords
      (heffect.others recordID hne)

theorem Upholds.gives (h : Upholds recordID s) {record : Record}
    {r : Except GoError Unit}
    (hw : w = setSlot s.world record.id false)
    (hexclusive : Exclusive (s.moved i w t)) (hhealthy : Healthy t)
    (hholding : holding (s.threads i) = some (record, .ended r))
    (hnone' : holding t = none)
    (hsettled : ¬unsettled recordID (s.threads i).main)
    (hsettled' : ¬unsettled recordID t.main) (hready : Ready recordID t.main) :
    Upholds recordID (s.moved i w t) := by
  subst hw
  refine h.moved_of hexclusive hhealthy h.purpose hready (by simp [hnone'])
    (fun j _ => h.sane j)
    (fun ht => absurd (unsettled_of_carries ht) hsettled') id
    (by simp [hnone']) ?_ ?_
  · exact fun hset j _ => h.snapshot (settled_of_moved hset hsettled) j
  · intro hset hfree
    have hback := settled_of_moved hset hsettled
    by_cases hmine : recordID = record.id
    · -- the issuance has stored the names of its snapshot, the current ones
      have hsane := h.sane i record (.ended r) hholding
      have hok := (h.healthy i).2 (record, .ended r) hholding
      cases r with
      | error err => cases hok
      | ok _ =>
          obtain ⟨c, hc, hdomains⟩ := hsane
          intro stored hstored
          have hnames := h.snapshot hback i record _ hholding hmine.symm stored
            hstored
          have hid : stored.id = recordID := Table.find?_key hstored
          refine ⟨c, ?_, hdomains.trans hnames.symm⟩
          rw [hid, hmine]
          exact hc
    · rw [setSlot_pending, withSlot_ne _ _ hmine] at hfree
      exact h.current hback hfree

theorem Upholds.moved (h : Upholds recordID s)
    (heffect : Effect recordID s.world w (s.threads i) t)
    (hexclusive : Exclusive (s.moved i w t)) (hhealthy : Healthy t)
    (hfresh : FreshAt recordID s (s.moved i w t) i) :
    Upholds recordID (s.moved i w t) := by
  cases heffect with
  | beside haside hholding hunsettled hcarries hready =>
      exact h.beside hexclusive hhealthy haside hholding hunsettled hcarries
        hready
  | stores id hpending hcerts hothers hkept hpurpose _ hnone' hmain
      hsettled =>
      exact h.stores hexclusive hhealthy hpending hcerts hothers hkept
        hpurpose hnone' hmain hsettled
  | refuses record hw hreserving hrecord _ hnone' hsettled hready =>
      subst hw
      exact h.refuses hexclusive hhealthy hfresh hreserving hrecord hnone'
        hsettled hready
  | takes record hw hreserving hrecord _ hholding hsettled hready =>
      exact h.takes hw hexclusive hhealthy hfresh hreserving hrecord hholding
        hsettled hready
  | works record st st' hholding hholding' heffect hsettled hsettled' hready =>
      exact h.works hexclusive hhealthy hholding hholding' heffect hsettled
        hsettled' hready
  | gives record r hw hholding hnone' hsettled hsettled' hready =>
      exact h.gives hw hexclusive hhealthy hholding hnone' hsettled hsettled'
        hready

end Moved

/-! ## The statements of a save -/

/-- `UpdateRecord` returns the record with the address set. -/
theorem updateRecord_returns (env : Env) (o : Oracle Call) (record : Record)
    (addr : Address) :
    Prog.Returns o (fun r => savedColumns r = savedColumns record)
      (updateRecord env record addr) :=
  .bind_any fun _ => .bind_any fun _ => .bind_any fun _ => .pure rfl

/-- `RefreshRecord` returns the record but for its address. -/
theorem refreshRecord_returns (env : Env) (o : Oracle Call)
    (record : Record) :
    Prog.Returns o (fun r => savedColumns r = savedColumns record)
      (refreshRecord env record) := by
  refine .ite (fun _ => .bind_any fun current => ?_) fun _ => .pure rfl
  split
  · exact .throw _
  · refine .bind_any fun found => .ite (fun _ => .pure rfl) fun _ => ?_
    exact .bind (updateRecord_returns env o record current) fun r hr =>
      .bind_any fun _ => .pure hr

/-- A save has stored the record `id`. -/
structure Stored (input : RecordInput) (w w' : World) (id : Int) : Prop where
  pending : w'.pending = w.pending
  certificates : w'.certificates = w.certificates
  others : ∀ i, i ≠ id → w'.records.find? i = w.records.find? i
  kept : ∀ i, (w.records.find? i).isSome → (w'.records.find? i).isSome
  id_eq : id = input.id ∨ input.id = 0 ∧ id = w.records.next
  purpose : ∀ record, w'.records.find? id = some record →
    record.purpose = input.purpose.toInt8

/-- The record `CreateRecord` inserts. -/
def insertedRecord (p : RecordParams) (id : Int) : Record :=
  ⟨id, p.token, p.zoneID, p.domain, p.name, p.ttl, none, p.purpose,
    p.includeWildcard, p.acmeEmail⟩

private theorem storeRow_inserted (input : RecordInput) (token : GoString)
    (w : World) (hid : input.id = 0) :
    Stored input w { w with
      records := w.records.insert (insertedRecord (input.params token)) }
      w.records.next where
  pending := rfl
  certificates := rfl
  others := fun i hi => Table.find?_insert_ne _ _ (fun _ => rfl) hi
  kept := by
    intro i hi
    obtain ⟨r, hr⟩ := Option.isSome_iff_exists.mp hi
    exact Option.isSome_iff_exists.mpr ⟨r,
      Table.find?_insert_of_some (h := fun _ => rfl) hr⟩
  id_eq := .inr ⟨hid, rfl⟩
  purpose := by
    intro record hrecord
    have hself := Table.find?_insert_self w.records
      (insertedRecord (input.params token)) fun _ => rfl
    cases hself.symm.trans hrecord
    rfl

private theorem storeRow_updated (input : RecordInput) (token : GoString)
    (w : World) :
    Stored input w { w with
      records := w.records.updateWhere (fun r => r.id == input.id) fun r =>
        { r with
          token := (input.params token).token
          zoneID := (input.params token).zoneID
          domain := (input.params token).domain
          name := (input.params token).name
          ttl := (input.params token).ttl
          purpose := (input.params token).purpose
          includeWildcard := (input.params token).includeWildcard
          acmeEmail := (input.params token).acmeEmail } }
      input.id where
  pending := rfl
  certificates := rfl
  others := by
    intro i hi
    rw [Table.find?_updateWhere]
    cases hfind : w.records.find? i with
    | none => rfl
    | some r =>
        have hkey : r.id = i := Table.find?_key hfind
        simp [hkey, hi]
  kept := by
    intro i hi
    rw [Table.find?_updateWhere, Option.isSome_map]
    exact hi
  id_eq := .inl rfl
  purpose := by
    intro record hrecord
    rw [Table.find?_updateWhere] at hrecord
    obtain ⟨r, hr, rfl⟩ := Option.map_eq_some_iff.mp hrecord
    have hkey : r.id = input.id := Table.find?_key hr
    simp [hkey, RecordInput.params]

/-- The statement of a save, when it gets through. -/
theorem storeRow_effect (env : Env) (s : Sys World) (input : RecordInput)
    (token : GoString) :
    (storeRow env input token).wp .quiet s fun r t =>
      match r with
      | .error _ => Aside s.state t.state
      | .ok id => Stored input s.state t.state id := by
  rw [storeRow]
  by_cases hid : input.id = 0
  · rw [if_pos hid]
    refine wp_mapError_of ((Prog.wp_call_quiet _ _ _ _).mpr ?_)
    by_cases hrejected : (input.params token).rejected = true
    · rw [if_pos hrejected]
      exact Aside.refl _
    · rw [if_neg hrejected]
      by_cases htaken : (input.params token).taken env.collate
          s.state.records.next s.state.records = true
      · rw [if_pos htaken]
        exact Aside.mk rfl rfl fun _ => rfl
      · rw [if_neg htaken]
        exact storeRow_inserted input token s.state hid
  · rw [if_neg hid]
    refine (Prog.wp_bind _ _ _).mpr (wp_mapError_of
      ((Prog.wp_call_quiet _ _ _ _).mpr ?_))
    by_cases hmissing : (s.state.records.find? input.id).isNone = true
    · rw [if_pos hmissing]
      refine Stored.mk rfl rfl (fun _ _ => rfl) (fun _ h => h) (.inl rfl) ?_
      intro record hrecord
      change s.state.records.find? input.id = some record at hrecord
      rw [Option.isNone_iff_eq_none.mp hmissing] at hrecord
      cases hrecord
    · rw [if_neg hmissing]
      by_cases hrejected : (input.params token).rejected = true
      · rw [if_pos hrejected]
        exact Aside.refl _
      · rw [if_neg hrejected]
        by_cases htaken : (input.params token).taken env.collate input.id
            s.state.records = true
        · rw [if_pos htaken]
          exact Aside.refl _
        · rw [if_neg htaken]
          exact storeRow_updated input token s.state

/-! ## The statements of a call -/

@[simp] theorem settled_returnPc (recordID : Int) (r : Except GoError Unit)
    (k : Return) : ¬unsettled recordID (k.pc r) := by
  cases k <;> exact id

@[simp] theorem settled_afterPc (recordID : Int) (r : Except GoError Unit)
    (k : After) : ¬unsettled recordID (k.pc r) := by
  cases k <;> exact id

theorem ready_returnPc (recordID : Int) (r : Except GoError Unit)
    (k : Return) : Ready recordID (k.pc r) := by
  cases k <;> trivial

theorem ready_afterPc (recordID : Int) (r : Except GoError Unit)
    (k : After) : Ready recordID (k.pc r) := by
  cases k <;> trivial

@[simp] theorem holding_returnPc (r : Except GoError Unit) (k : Return) :
    holdingPc (k.pc r) = none := by
  cases k <;> rfl

@[simp] theorem holding_afterPc (r : Except GoError Unit) (k : After) :
    holdingPc (k.pc r) = none := by
  cases k <;> rfl

/-- A call that has returned an error. -/
def failedCall : Pc → Bool
  | .returned (.error _) => true
  | _ => false

/-- A thread after a statement of its main flow, which had left nothing to the
background before. -/
def stepped (x : Pc × Option Record) : Thread :=
  ⟨x.1, x.2.map fun record => (record, .first)⟩

/-- The statement of `pc` has one of the effects, unless something failed. -/
def HasEffect (recordID : Int) (s : Sys World) (pc : Pc)
    (p : Handler (Pc × Option Record)) : Prop :=
  p.wp .quiet s fun r sys => ∀ x, r = .ok x → Healthy (stepped x) →
    (unsettled recordID pc → failedCall x.1 = false) →
      Effect recordID s.state sys.state ⟨pc, none⟩ (stepped x)

section HasEffect

variable {recordID : Int} {s : Sys World} {pc : Pc}

/-- A step from one program counter without a slot to another. -/
theorem hasEffect_pure {pc' : Pc} (hpc : holdingPc pc = none)
    (hpc' : holdingPc pc' = none)
    (hunsettled : unsettled recordID pc' ↔ unsettled recordID pc)
    (hcarries : carries recordID pc' →
      (s.state.records.find? recordID).isSome)
    (hready : Ready recordID pc') :
    HasEffect recordID s pc (pure (pc', none)) := by
  intro x hx _ _
  cases hx
  exact .beside (.refl _) (hpc'.trans hpc.symm) hunsettled hcarries hready

theorem hasEffect_throw (err : GoError) :
    HasEffect recordID s pc (Prog.throw err) := by
  intro x hx
  cases hx

/-- `GetRecord`, when no statement fails. -/
theorem hasEffect_getRecord {id : Int}
    {f : Except GoError Record → Handler (Pc × Option Record)}
    (hfound : ∀ record, s.state.records.find? id = some record →
      HasEffect recordID ⟨s.state, s.clock + 1⟩ pc (f (.ok record)))
    (hmissing : s.state.records.find? id = none →
      HasEffect recordID ⟨s.state, s.clock + 1⟩ pc (f (.error .noRows))) :
    HasEffect recordID s pc ((getRecord id).attempt >>= f) := by
  refine wp_attempt_bind ((Prog.wp_query_quiet _ _ _ _).mpr ?_)
  cases hfind : s.state.records.find? id with
  | none => exact hmissing hfind
  | some record => exact hfound record hfind

/-- A program beside the issuances, and after it a program counter that goes
on. -/
theorem hasEffect_aside {α : Type} {p : Handler α}
    {f : Except GoError α → Pc} (hp : Prog.Keeps .quiet Aside p)
    (hpc : holdingPc pc = none) (hf : ∀ r, holdingPc (f r) = none)
    (hpcs : ¬unsettled recordID pc) (hsettled : ∀ r, ¬unsettled recordID (f r))
    (hready : ∀ r, Ready recordID (f r)) :
    HasEffect recordID s pc (do
      let r ← p.attempt
      pure (f r, none)) := by
  refine wp_attempt_bind (Prog.wp_mono (hp s) ?_)
  intro r sys haside x hx _ _
  cases hx
  exact .beside haside ((hf r).trans hpc.symm)
    (iff_of_false (hsettled r) hpcs)
    (fun h => absurd (unsettled_of_carries h) (hsettled r)) (hready r)

/-- A reservation, by a call whose record is ready for it. -/
theorem hasEffect_takeSlot (env : Env) (hacme : env.acmeEnabled = true)
    {record : Record} {taken : Pc} {refused : GoError → Pc}
    (hreserving : reserving pc = some record)
    (hpc : holdingPc pc = none)
    (hrecord : unsettled recordID pc → record.id = recordID ∧
      recordDoesCert record.purpose = true)
    (htaken : holdingPc taken = some (record, .first))
    (hrefused : ∀ err, holdingPc (refused err) = none)
    (hsettled : ¬unsettled recordID taken)
    (hsettled' : ∀ err, ¬unsettled recordID (refused err))
    (hready : Ready recordID taken)
    (hready' : ∀ err, Ready recordID (refused err)) :
    HasEffect recordID s pc (do
      match ← (takeSlot env record).attempt with
      | .ok () => pure (taken, none)
      | .error err => pure (refused err, none)) := by
  refine wp_attempt_bind (Prog.wp_mono (takeSlot_spec env record) ?_)
  rintro (err | ⟨⟩) sys hsys x hx _ _
  · cases hx
    refine .refuses record hsys.1 hreserving (fun hun => ?_) hpc (hrefused err)
      (hsettled' err) (hready' err)
    obtain ⟨hid, hcert⟩ := hrecord hun
    exact ⟨hid, hid ▸ hsys.2 hcert hacme⟩
  · cases hx
    exact .takes record hsys.2 hreserving (fun hun => (hrecord hun).1) hpc
      htaken hsettled hready

end HasEffect

/-- The input of a save that is about to store it. -/
def storing : Pc → Option RecordInput
  | .saveRow input _ => some input
  | _ => none

/-- A save of the record keeps it one for certificates. -/
def KeepsPurpose (recordID : Int) (w : World) (pc : Pc) : Prop :=
  ∀ input ∈ storing pc,
    input.id = recordID ∨ input.id = 0 ∧ w.records.next = recordID →
      recordDoesCert input.purpose.toInt8 = true

instance (recordID : Int) (w : World) (pc : Pc) :
    Decidable (KeepsPurpose recordID w pc) :=
  inferInstanceAs (Decidable (∀ input ∈ storing pc, _ → _))

/-- **What a statement of the main flow does**, when no statement fails and
ACME is enabled. -/
theorem next_effect {recordID : Int} {s : State} (h : Upholds recordID s)
    (env : Env) (hacme : env.acmeEnabled = true) {i : Nat} {pc : Pc}
    (hpc : s.threads i = ⟨pc, none⟩)
    (hpurpose : KeepsPurpose recordID s.world pc) :
    HasEffect recordID ⟨s.world, 0⟩ pc (pc.next env) := by
  have hready : Ready recordID pc := by simpa [hpc] using h.ready i
  have hstored : carries recordID pc →
      (s.world.records.find? recordID).isSome := by
    simpa [hpc] using h.stored i
  have hfound : ∀ id record, s.world.records.find? id = some record →
      record.id = id ∧ (id = recordID → recordDoesCert record.purpose = true ∧
        (s.world.records.find? recordID).isSome) := by
    intro id record hrecord
    refine ⟨Table.find?_key hrecord, ?_⟩
    rintro rfl
    exact ⟨h.purpose record hrecord, by simp [hrecord]⟩
  cases pc with
  | idle => exact hasEffect_throw _
  | returned r => exact hasEffect_throw _
  | start id k =>
      refine hasEffect_getRecord (fun record hrecord => ?_) fun hmissing => ?_
      · obtain ⟨rfl, hcert⟩ := hfound id record hrecord
        refine hasEffect_pure rfl rfl ?_ ?_ fun hid => (hcert hid).1
        · cases k <;> exact Iff.rfl
        · cases k with
          | caller => exact False.elim
          | save r => exact fun hid => (hcert hid).2
      · refine hasEffect_pure rfl (holding_afterPc _ k)
          (iff_of_false (settled_afterPc _ _ k) ?_)
          (fun hc => absurd (unsettled_of_carries hc) (settled_afterPc _ _ k))
          (ready_afterPc _ _ k)
        cases k with
        | caller => exact False.elim
        | save r =>
            rintro rfl
            have hsome := hstored rfl
            rw [hmissing] at hsome
            cases hsome
  | startReserve record k =>
      refine hasEffect_takeSlot env hacme rfl rfl ?_ rfl
        (fun _ => holding_afterPc _ k) id (fun _ => settled_afterPc _ _ k)
        trivial fun _ => ready_afterPc _ _ k
      cases k with
      | caller => exact False.elim
      | save r => exact fun hid => ⟨hid, hready hid⟩
  | prepare record e k =>
      have hnot : ¬unsettled recordID (.prepare record e k) := False.elim
      refine (Prog.wp_bind _ _ _).mpr (Prog.wp_mono
        (ensure_effect .quiet ⟨s.world, 0⟩ record e) ?_)
      rintro (err | e' | err | certID) sys heffect x hx hhealthy _
      · cases hx
      · cases hx
        exact .works record (.ensure e) (.ensure e') rfl rfl
          (heffect.1.stage trivial) hnot False.elim trivial
      · cases hx
        cases hhealthy.1
      · cases hx
        exact .works record (.ensure e) .first rfl rfl
          (heffect.1.logged.stage trivial) hnot (settled_afterPc _ _ k)
          (ready_afterPc _ _ k)
  | abort record err k =>
      have hhealthy := (h.healthy i).1
      rw [hpc] at hhealthy
      cases hhealthy
  | issue id =>
      refine hasEffect_getRecord (fun record hrecord => ?_) fun hmissing => ?_
      · exact hasEffect_pure rfl rfl Iff.rfl False.elim trivial
      · exact hasEffect_pure rfl rfl Iff.rfl False.elim trivial
  | reserve record source k =>
      exact hasEffect_takeSlot env hacme rfl rfl False.elim rfl
        (fun _ => holding_returnPc _ k) False.elim
        (fun _ => settled_returnPc _ _ k) trivial
        fun _ => ready_returnPc _ _ k
  | issuing record source st k =>
      have hholding : holding (s.threads i) = some (record, st) := by
        rw [hpc]
        rfl
      have hnot : ¬unsettled recordID (.issuing record source st k) :=
        False.elim
      by_cases hended : ∃ r, st = .ended r
      · obtain ⟨r, rfl⟩ := hended
        intro x hx _ _
        cases hx
        exact .gives record r rfl rfl (holding_returnPc r k) hnot
          (settled_returnPc _ _ k) (ready_returnPc _ _ k)
      · rw [next_issuing env record source k fun r hr => hended ⟨r, hr⟩]
        refine (Prog.wp_bind _ _ _).mpr (Prog.wp_mono (stage_effect env .quiet
          ⟨s.world, 0⟩ record source (h.sane i record st hholding)
          ((h.healthy i).2 (record, st) hholding)) ?_)
        intro r sys heffect
        cases r with
        | error err =>
            intro x hx
            cases hx
        | ok st' =>
            intro x hx _ _
            cases hx
            exact .works record st st' rfl rfl (heffect st' rfl) hnot
              False.elim trivial
  | renew =>
      rw [Pc.next]
      split
      · exact hasEffect_pure rfl rfl Iff.rfl False.elim trivial
      · refine wp_attempt_bind ((Prog.wp_query_quiet _ _ _ _).mpr ?_)
        exact hasEffect_pure rfl rfl Iff.rfl False.elim trivial
  | renewNext rest =>
      cases rest with
      | nil => exact hasEffect_pure rfl rfl Iff.rfl False.elim trivial
      | cons cert rest =>
          refine hasEffect_getRecord (fun record hrecord => ?_)
            fun hmissing => ?_
          · dsimp only
            split
            · exact hasEffect_pure rfl rfl Iff.rfl False.elim trivial
            · exact hasEffect_pure rfl rfl Iff.rfl False.elim trivial
          · exact hasEffect_pure rfl rfl Iff.rfl False.elim trivial
  | save input =>
      rw [Pc.next]
      split
      · split
        · exact hasEffect_pure rfl rfl Iff.rfl False.elim trivial
        · exact hasEffect_pure rfl rfl Iff.rfl False.elim trivial
      · exact hasEffect_pure rfl rfl Iff.rfl False.elim trivial
  | saveToken input =>
      refine hasEffect_getRecord (fun record hrecord => ?_) fun hmissing => ?_
      · exact hasEffect_pure rfl rfl Iff.rfl False.elim trivial
      · exact hasEffect_pure rfl rfl Iff.rfl False.elim trivial
  | saveRow input token =>
      refine wp_attempt_bind (Prog.wp_mono
        (storeRow_effect env ⟨s.world, 0⟩ input token) ?_)
      intro r sys hstore x hx _ _
      cases r with
      | error err =>
          cases hx
          exact .beside hstore rfl Iff.rfl False.elim trivial
      | ok id =>
          cases hx
          refine .stores id hstore.pending hstore.certificates hstore.others
            (hstore.kept recordID) ?_ rfl rfl rfl False.elim
          rintro rfl record hrecord
          rw [hstore.purpose record hrecord]
          refine hpurpose input rfl ?_
          rcases hstore.id_eq with hid | ⟨hzero, hid⟩
          · exact .inl hid.symm
          · exact .inr ⟨hzero, hid.symm⟩
  | saveBack id =>
      refine hasEffect_getRecord (fun record hrecord => ?_) fun hmissing => ?_
      · obtain ⟨rfl, hcert⟩ := hfound id record hrecord
        exact hasEffect_pure rfl rfl Iff.rfl (fun hid => (hcert hid).2)
          fun hid => (hcert hid).1
      · intro x hx _ hsucceeds
        cases hx
        exact .beside (.refl _) rfl
          (iff_of_false False.elim fun hid => by cases hsucceeds hid) False.elim
          trivial
  | saveRefresh record =>
      refine wp_attempt_bind (Prog.wp_mono (Prog.wp_and
        (refreshRecord_aside env record ⟨s.world, 0⟩)
        (refreshRecord_returns env .quiet record ⟨s.world, 0⟩)) ?_)
      intro r sys hr x hx _ hsucceeds
      obtain ⟨haside, hsaved⟩ := hr
      cases r with
      | error err =>
          cases hx
          exact .beside haside rfl
            (iff_of_false False.elim fun hid => by cases hsucceeds hid)
            False.elim trivial
      | ok record' =>
          cases hx
          have hsame := hsaved record' rfl
          have hid : record'.id = record.id := by
            change (savedColumns record').id = _
            rw [hsame]
            rfl
          have hcert : record'.purpose = record.purpose := by
            change (savedColumns record').purpose = _
            rw [hsame]
            rfl
          refine .beside haside rfl ?_ ?_ ?_
          · change record'.id = recordID ↔ record.id = recordID
            rw [hid]
          · exact fun hc => hstored (hid.symm.trans hc)
          · intro hc
            rw [hcert]
            exact hready (hid.symm.trans hc)
  | saveIssue record =>
      rw [Pc.next]
      split
      · exact hasEffect_pure rfl rfl Iff.rfl hstored trivial
      · next hnot =>
          exact hasEffect_pure rfl rfl
            (iff_of_false False.elim fun hid => hnot ⟨hready hid, hacme⟩)
            False.elim trivial
  | answer record =>
      exact hasEffect_aside (answer_aside record) rfl (fun _ => rfl) False.elim
        (fun _ => False.elim) fun _ => trivial

/-! ## The statements of a thread -/

theorem settled_of_winding {recordID : Int} {pc : Pc}
    (h : pc.winding = true) : ¬unsettled recordID pc := by
  cases pc with
  | answer record => exact id
  | returned r => exact id
  | _ => cases h

theorem ready_of_winding {recordID : Int} {pc : Pc} (h : pc.winding = true) :
    Ready recordID pc := by
  cases pc with
  | answer record => trivial
  | returned r => trivial
  | _ => cases h

theorem holding_of_winding {pc : Pc} (h : pc.winding = true) :
    holdingPc pc = none := by
  cases pc with
  | answer record => rfl
  | returned r => rfl
  | _ => cases h

/-- **What a statement of the main flow does**, also once the issuance of the
call runs in the background. -/
theorem mainStep_effect {recordID : Int} {s : State} (h : Upholds recordID s)
    (env : Env) (hacme : env.acmeEnabled = true) {i : Nat}
    (hpurpose : KeepsPurpose recordID s.world (s.threads i).main) :
    ((s.threads i).mainStep env).wp .quiet ⟨s.world, 0⟩ fun r sys =>
      ∀ t, r = .ok t → Healthy t →
        (unsettled recordID (s.threads i).main →
          failedCall t.main = false) →
        Effect recordID s.world sys.state (s.threads i) t := by
  rcases hthread : s.threads i with ⟨pc, background⟩
  rw [hthread] at hpurpose
  cases background with
  | some b =>
      have hwinding : pc.winding = true := by
        simpa [hthread] using h.exclusive.sound i b
      refine Prog.wp_bind_of (next_winding env .quiet _ hwinding) ?_ ?_
      · intro err sys _ t ht
        cases ht
      · rintro ⟨pc', spawned⟩ sys hsys t ht _ _
        obtain ⟨haside, hpc', rfl⟩ := hsys _ rfl
        obtain rfl : ⟨pc', some b⟩ = t := Except.ok.inj ht
        exact .beside haside rfl (iff_of_false (settled_of_winding hpc')
          (settled_of_winding hwinding))
          (fun hc => absurd (unsettled_of_carries hc)
            (settled_of_winding hpc')) (ready_of_winding hpc')
  | none =>
      refine Prog.wp_bind_of (next_effect h env hacme hthread hpurpose) ?_ ?_
      · intro err sys _ t ht
        cases ht
      · rintro ⟨pc', spawned⟩ sys hsys t ht
        cases spawned with
        | none =>
            obtain rfl : ⟨pc', none⟩ = t := Except.ok.inj ht
            exact hsys _ rfl
        | some record =>
            obtain rfl : ⟨pc', some (record, .first)⟩ = t := Except.ok.inj ht
            exact hsys _ rfl

/-- **What a statement of a background issuance does.** -/
theorem backgroundStep_effect {recordID : Int} {s : State}
    (h : Upholds recordID s) (env : Env) (o : Oracle Call) {i : Nat} :
    ((s.threads i).backgroundStep env).wp o ⟨s.world, 0⟩ fun r sys =>
      ∀ t, r = .ok t →
        Effect recordID s.world sys.state (s.threads i) t := by
  rcases hthread : s.threads i with ⟨pc, background⟩
  cases background with
  | none =>
      intro t ht
      cases ht
  | some b =>
      obtain ⟨record, st⟩ := b
      have hwinding : pc.winding = true := by
        simpa [hthread] using h.exclusive.sound i (record, st)
      have hholding : holding (s.threads i) = some (record, st) := by
        rw [hthread]
        rfl
      have hnot := @settled_of_winding recordID pc hwinding
      have hready := @ready_of_winding recordID pc hwinding
      refine wp_backgroundStep env ?_ ?_
      · rintro r rfl
        exact .gives record r rfl rfl (holding_of_winding hwinding) hnot hnot
          hready
      · refine Prog.wp_mono (stage_effect env o ⟨s.world, 0⟩ record _
          (h.sane i record st hholding)
          ((h.healthy i).2 (record, st) hholding)) ?_
        intro r sys heffect st' hr
        exact .works record st st' rfl rfl (heffect st' hr) hnot hnot hready

/-! ## Runs -/

/-- Nothing fails outside the calls, ACME is enabled, saves keep the record one
for certificates, and other calls leave records and certificates alone. -/
def Undisturbed (recordID : Int) (s : State) : Label → Prop
  | .call _ _ => True
  | .main i env o => o = .quiet ∧ env.acmeEnabled = true ∧
      KeepsPurpose recordID s.world (s.threads i).main
  | .background _ _ o => o = .quiet
  | .others w => Aside s.world { w with pending := s.world.pending }

/-- **The assumptions.**  No preparation and no issuance fails, and a save that
has stored the record does not. -/
structure Available (recordID : Int) (s : State) (a : Label) : Prop where
  undisturbed : Undisturbed recordID s a
  healthy : ∀ s' i, issuances.step s a = some s' → a.By i →
    Healthy (s'.threads i)
  saves : ∀ s' i, issuances.step s a = some s' → a.By i →
    unsettled recordID (s.threads i).main →
      failedCall (s'.threads i).main = false

/-- **The condition.**  A reservation of the slot of the record leaves it to an
issuance with the names that are stored then, or a save is still on its way to
a reservation of its own. -/
def Fresh (recordID : Int) (s : State) (a : Label) : Prop :=
  ∀ s' i, issuances.step s a = some s' → a.By i → FreshAt recordID s s' i

/-- A thread that moves beside the slots. -/
theorem moved_of_pending {s : State} (h : Exclusive s) {w : World}
    (hw : w.pending = s.world.pending) (i : Nat) (t : Thread) :
    s.moved i w t =
      { s with
        world := w
        threads := s.threads.set i t } := by
  have howner : (s.moved i w t).owner = s.owner :=
    funext fun id => h.owner_moved (congrFun hw id)
  rw [← howner]
  rfl

/-- The first statement of a call. -/
theorem entry_pc (recordID : Int) (e : Entry) :
    ¬unsettled recordID e.pc ∧ Ready recordID e.pc ∧ holdingPc e.pc = none ∧
      aborting e.pc = false := by
  cases e with
  | startIssuance id => exact ⟨False.elim, trivial, rfl, rfl⟩
  | issueCertificate id => exact ⟨False.elim, trivial, rfl, rfl⟩
  | renewCertificates => exact ⟨False.elim, trivial, rfl, rfl⟩
  | upsertRecord input => exact ⟨False.elim, trivial, rfl, rfl⟩

theorem healthy_of_none {pc : Pc} (hpc : holdingPc pc = none)
    (habort : aborting pc = false) : Healthy ⟨pc, none⟩ := by
  refine ⟨habort, fun x hx => ?_⟩
  rw [holding, hpc] at hx
  cases hx

/-- Before any call, with the record not stored or its row up to date. -/
theorem upholds_start {recordID : Int} {w : World}
    (hfree : w.pending = fun _ => false) (hpurpose : ForCertificates w recordID)
    (hcurrent : Current w recordID) : Upholds recordID (start w) where
  exclusive := exclusive_start hfree
  purpose := hpurpose
  healthy := fun _ => healthy_of_none rfl rfl
  sane := fun _ _ _ h => nomatch h
  ready := fun _ => trivial
  stored := fun _ => False.elim
  snapshot := fun _ _ _ _ h => nomatch h
  current := fun _ _ => hcurrent

/-- **Step lemma.** -/
theorem upholds_step {recordID : Int} (s : State) (a : Label) (s' : State)
    (h : Upholds recordID s)
    (hcond : Available recordID s a ∧ Fresh recordID s a)
    (hstep : issuances.step s a = some s') : Upholds recordID s' := by
  obtain ⟨⟨hundisturbed, hhealthy, hsaves⟩, hfresh⟩ := hcond
  have hexclusive := exclusive_step s a s' h.exclusive hstep
  have hhealthy' := fun i => hhealthy s' i hstep
  have hsaves' := fun i => hsaves s' i hstep
  have hfresh' := fun i => hfresh s' i hstep
  cases a with
  | call i e =>
      simp only [issuances] at hstep
      split at hstep
      · next hidle =>
          have hnone := background_of_idle (h.exclusive.sound i) hidle
          have hmoved := moved_of_pending h.exclusive rfl i
            (⟨e.pc, (s.threads i).background⟩ : Thread)
          obtain rfl := Option.some.inj hstep
          rw [hnone] at hmoved hexclusive ⊢
          rw [← hmoved] at hexclusive ⊢
          obtain ⟨hsettled, hready, hholding, habort⟩ := entry_pc recordID e
          refine h.beside hexclusive (healthy_of_none hholding habort)
            (.refl _) ?_ ?_ ?_ hready
          · rw [holding, holding, hnone, hidle]
            exact hholding
          · rw [hidle]
            exact iff_of_false hsettled id
          · exact fun hc => absurd (unsettled_of_carries hc) hsettled
      · cases hstep
  | main i env o =>
      obtain ⟨rfl, hacme, hpurpose⟩ := hundisturbed
      obtain ⟨t, ht, rfl⟩ := carryOut_eq_some hstep
      have hthread := moved_self s i
        (((s.threads i).mainStep env .quiet ⟨s.world, 0⟩).2.state) t
      have hhealthy := hhealthy' i (.main i env _)
      have hsaves := hsaves' i (.main i env _)
      rw [hthread] at hhealthy hsaves
      exact h.moved (mainStep_effect h env hacme hpurpose t ht hhealthy hsaves)
        hexclusive hhealthy (hfresh' i (.main i env _))
  | background i env o =>
      obtain ⟨t, ht, rfl⟩ := carryOut_eq_some hstep
      have hhealthy := hhealthy' i (.background i env o)
      rw [moved_self] at hhealthy
      exact h.moved (backgroundStep_effect h env o t ht) hexclusive hhealthy
        (hfresh' i (.background i env o))
  | others w =>
      have hmoved := moved_of_pending h.exclusive
        (w := { w with pending := s.world.pending }) rfl 0 (s.threads 0)
      obtain rfl := Option.some.inj hstep
      have hsame : s.threads.set 0 (s.threads 0) = s.threads :=
        Function.update_eq_self 0 s.threads
      rw [hsame] at hmoved
      change Upholds recordID { s with world := _ }
      rw [← hmoved] at hexclusive ⊢
      exact h.beside hexclusive (h.healthy 0) hundisturbed rfl Iff.rfl
        (h.stored 0) (h.ready 0)

/-- A record for certificates of `name`. -/
private def certRecordNamed (name : GoString) (id : Int) : Record :=
  ⟨id, "token", 7, "example.org", name, 60, none, purposeCert, false, none⟩

/-- A database with the record `www` and its certificate. -/
private def oneCertificate : World :=
  { World.init fun _ _ => none with
    records := Table.empty.insert (certRecordNamed "www")
    certificates := Table.empty.insert fun id =>
      ⟨id, 1, "www.example.org", "valid", some 0, some 7776000, some "1", none,
        "fullchain.pem", "privkey.pem"⟩ }

private def acmeServer : Env := { Env.sample with acmeEnabled := true }

/-- A step when nothing fails. -/
private inductive Turn where
  | call (i : Nat) (e : Entry)
  | main (i : Nat)
  | background (i : Nat)

private def Turn.thread : Turn → Nat
  | .call i _ => i
  | .main i => i
  | .background i => i

private def Turn.label : Turn → Label
  | .call i e => .call i e
  | .main i => .main i acmeServer .quiet
  | .background i => .background i acmeServer .quiet

/-- Nothing has failed in this step. -/
private def Turn.Well (s : State) (turn : Turn) : Prop :=
  KeepsPurpose 1 s.world (s.threads turn.thread).main ∧
    ∀ s' ∈ issuances.step s turn.label, Healthy (s'.threads turn.thread) ∧
      failedCall (s'.threads turn.thread).main = false

instance (s : State) (turn : Turn) : Decidable (turn.Well s) :=
  inferInstanceAs (Decidable (_ ∧ ∀ s' ∈ _, _ ∧ _))

private theorem available_of_well {s : State} {turn : Turn}
    (h : turn.Well s) : Available 1 s turn.label := by
  refine ⟨?_, fun s' i hstep hby => ?_, fun s' i hstep hby _ => ?_⟩
  · cases turn with
    | call i e => trivial
    | main i => exact ⟨rfl, rfl, h.1⟩
    | background i => rfl
  · obtain rfl : i = turn.thread := by
      cases turn <;> cases hby <;> rfl
    exact (h.2 s' hstep).1
  · obtain rfl : i = turn.thread := by
      cases turn <;> cases hby <;> rfl
    exact (h.2 s' hstep).2

private theorem available_along (turns : List Turn)
    (h : (issuances.comap Turn.label).Along (fun s t => t.Well s)
      (start oneCertificate) turns) :
    issuances.Along (Available 1) (start oneCertificate)
      (turns.map Turn.label) :=
  issuances.along_comap Turn.label turns _
    (Machine.along_mono _ (fun _ _ => available_of_well) turns _ h)

/-- The reservations of this step are fresh. -/
private def Turn.Renews (s : State) (turn : Turn) : Prop :=
  reserving (s.threads turn.thread).main = none ∨
    ∀ s' ∈ issuances.step s turn.label, OwnerFresh 1 s'

instance (s : State) (turn : Turn) : Decidable (turn.Renews s) :=
  inferInstanceAs (Decidable (_ ∨ ∀ s' ∈ _, _))

private theorem fresh_of_renews {s : State} {turn : Turn}
    (h : turn.Renews s) : Fresh 1 s turn.label := by
  intro s' i hstep hby hreserves _
  obtain rfl : i = turn.thread := by
    cases turn <;> cases hby <;> rfl
  rcases h with hnone | hfresh
  · obtain ⟨record, hrecord, _⟩ := hreserves
    rw [hnone] at hrecord
    cases hrecord
  · exact hfresh s' hstep

private theorem fresh_along (turns : List Turn)
    (h : (issuances.comap Turn.label).Along (fun s t => t.Renews s)
      (start oneCertificate) turns) :
    issuances.Along (Fresh 1) (start oneCertificate)
      (turns.map Turn.label) :=
  issuances.along_comap Turn.label turns _
    (Machine.along_mono _ (fun _ _ => fresh_of_renews) turns _ h)

/-- `StartIssuance` by the user, up to its background goroutine. -/
private def begun : List Turn :=
  [.call 0 (.startIssuance 1), .main 0, .main 0, .main 0]

/-- All of its background goroutine. -/
private def finished : List Turn := List.replicate 8 (.background 0)

/-- A save that renames the record to `web`. -/
private def renamed : List Turn :=
  .call 1 (.upsertRecord ⟨1, "token", 7, "example.org", "web", 60, 2, false,
    []⟩) :: List.replicate 8 (.main 1)

/-- Threads from 2 on are idle. -/
private def Spare (s : State) : Prop := ∀ i, s.threads (i + 2) = .idle

private theorem spare_step (s : State) (turn : Turn) (s' : State)
    (h : Spare s) (hturn : turn.thread < 2)
    (hstep : (issuances.comap Turn.label).step s turn = some s') :
    Spare s' := by
  have hmoved : ∀ (w : World) (t : Thread), Spare (s.moved turn.thread w t) :=
    fun w t i => (moved_ne s w t (by omega)).trans (h i)
  cases turn with
  | call i e =>
      change issuances.step s (.call i e) = some s' at hstep
      simp only [issuances] at hstep
      split at hstep
      · obtain rfl := Option.some.inj hstep
        exact hmoved s.world _
      · cases hstep
  | main i =>
      obtain ⟨t, _, rfl⟩ := carryOut_eq_some hstep
      exact hmoved _ t
  | background i =>
      obtain ⟨t, _, rfl⟩ := carryOut_eq_some hstep
      exact hmoved _ t

/-- The thread has nothing left to do. -/
private def atRest (t : Thread) : Bool :=
  t.background.isNone && match t.main with
    | .idle => true
    | .returned _ => true
    | _ => false

private theorem quiescent_of_atRest {s : State} (hspare : Spare s)
    (h₀ : atRest (s.threads 0) = true) (h₁ : atRest (s.threads 1) = true) :
    s.Quiescent := by
  have hrest : ∀ t, atRest t = true → t.background = none ∧
      (t.main = .idle ∨ ∃ r, t.main = .returned r) := by
    rintro ⟨pc, background⟩ ht
    cases background with
    | some b => cases ht
    | none =>
        cases pc with
        | idle => exact ⟨rfl, .inl rfl⟩
        | returned r => exact ⟨rfl, .inr ⟨r, rfl⟩⟩
        | _ => cases ht
  rintro (_ | _ | i)
  · exact hrest _ h₀
  · exact hrest _ h₁
  · rw [hspare i]
    exact ⟨rfl, .inl rfl⟩

/-- A save that has stored the name `web` is overtaken by the user's issuance,
which reads that name; its own issuance is refused. -/
private def overtaken : List Turn :=
  renamed.take 3 ++ begun ++ renamed.drop 3 ++ finished

end Hdns.Ports.CertificateEdits

import Hdns.Ports.IssuanceSteps
import Hdns.Ports.Operations

/-!
# What a renewal pass covers

`RenewCertificates` goes through the certificate rows whose expiry lies within
the renewal window, loads the record of each, and issues for it; errors are
only logged, so no record keeps another from its turn.  The statement that
lists the rows passes over those without an expiry: a record that has no row
yet, or whose first issuance has not succeeded, is not renewed but waits for
`StartIssuance` or `IssueCertificate`.

## Main results

* `renewCertificates_eq` — the pass is the loop of `renewAttempts`, which also
  returns what it did for each row.
* `renewal_attempts_due` — the records a pass attempts.
* `renewal_covers_needed_iff` — when these are all that need a certificate.
-/

namespace Hdns.Ports.Renewal

open Hdns.Verified
open Hdns.Verified.GoString
open Hdns.Ports.Schema
open Hdns.Ports.Records
open Hdns.Ports.Certificates
open Hdns.Ports.Operations
open Hdns.Ports.IssuanceSteps

/-! ## The pass, with what it does -/

/-- What the pass did for one row of its list. -/
inductive Attempt where
  /-- The record could not be loaded. -/
  | loadFailed (recordID : Int)
  /-- The record is not configured for certificates. -/
  | skipped (recordID : Int)
  /-- `issueForRecord` was called. -/
  | issued (recordID : Int) (result : Except GoError Unit)
  deriving DecidableEq

/-- The record for which an issuance was attempted. -/
def Attempt.issued? : Attempt → Option Int
  | .issued recordID _ => some recordID
  | _ => none

/-- The records for which issuances were attempted, in order. -/
def attempted (attempts : List Attempt) : List Int :=
  attempts.filterMap Attempt.issued?

/-- The body of the loop of `RenewCertificates`. -/
def attemptOne (env : Env) (cert : Certificate) : Handler Attempt := do
  match ← (getRecord cert.recordID).attempt with
  | .error _ => pure (.loadFailed cert.recordID)
  | .ok record =>
      if recordDoesCert record.purpose then
        let result ← (issueForRecord env record
          issuanceSourceScheduled).attempt
        pure (.issued record.id result)
      else pure (.skipped record.id)

/-- Expiries up to this time are due. -/
def threshold (env : Env) : Int :=
  env.now + renewBefore env.renewBeforeDays / 1000000000

/-- `RenewCertificates`, returning what it did. -/
def renewAttempts (env : Env) : Handler (List Attempt) := do
  if ¬env.acmeEnabled then pure []
  else
    let certs ← (listCertificatesForRenewal (threshold env)).mapError
      (.because "failed to list certificates for renewal")
    certs.mapM (attemptOne env)

private theorem renewOne_eq (env : Env) (cert : Certificate) :
    renewOne env cert = attemptOne env cert >>= fun _ => pure () := by
  unfold renewOne attemptOne
  rw [bind_assoc]
  refine bind_congr fun loaded => ?_
  cases loaded with
  | error err => rfl
  | ok record =>
      by_cases hcert : recordDoesCert record.purpose = true
      · simp only [if_pos hcert, bind_assoc, pure_bind]
      · simp only [if_neg hcert, pure_bind]

private theorem forM_eq_mapM {α β : Type} {f : α → Handler Unit}
    {g : α → Handler β} (h : ∀ a, f a = g a >>= fun _ => pure ())
    (as : List α) : as.forM f = as.mapM g >>= fun _ => pure () := by
  induction as with
  | nil => rfl
  | cons a as ih =>
      rw [List.mapM_cons]
      simp only [List.forM, h, ih, bind_assoc, pure_bind]

/-- **The pass** is `renewAttempts`, of which it returns nothing. -/
theorem renewCertificates_eq (env : Env) :
    renewCertificates env = renewAttempts env >>= fun _ => pure () := by
  unfold renewCertificates renewAttempts
  by_cases hacme : env.acmeEnabled = true
  · simp only [if_neg (not_not.mpr hacme), bind_assoc, threshold,
      forM_eq_mapM (renewOne_eq env)]
  · simp only [if_pos hacme, pure_bind]

/-! ## Issuing leaves the records alone -/

/-- The records stay, but for the column a refresh sets. -/
def ColumnsKept (w w' : World) : Prop :=
  ∀ id, (w'.records.find? id).map savedColumns =
    (w.records.find? id).map savedColumns

theorem ColumnsKept.refl (w : World) : ColumnsKept w w := fun _ => rfl

theorem ColumnsKept.trans (w₁ w₂ w₃ : World) (h : ColumnsKept w₁ w₂)
    (h' : ColumnsKept w₂ w₃) : ColumnsKept w₁ w₃ :=
  fun id => (h' id).trans (h id)

section ColumnsKept

variable {o : Oracle Call}

theorem columns_of_aside {α : Type} {p : Handler α}
    (h : Prog.Keeps o Aside p) : Prog.Keeps o ColumnsKept p :=
  h.mono fun _ _ => Aside.records

theorem columns_of_records {α : Type} {p : Handler α}
    (h : Prog.Keeps o RecordsKept p) : Prog.Keeps o ColumnsKept p :=
  h.mono fun _ _ hkept id => by rw [hkept]

theorem obtainAndStore_columns (env : Env) (record : Record) (certID : Int) :
    Prog.Keeps o ColumnsKept (obtainAndStore env record certID) := by
  refine .bind ColumnsKept.trans (.ofExcept ColumnsKept.refl _) fun res => ?_
  refine .bind ColumnsKept.trans
    (columns_of_aside (storeFiles_aside env record res)) fun p => ?_
  refine .mapError (columns_of_records (.call RecordsKept.refl fun w => ?_)) _
  split
  · rfl
  · split <;> rfl

theorem closeIssuance_columns (env : Env) (record : Record)
    (certID jobID : Int) (outcome : Except GoError Unit) :
    Prog.Keeps o ColumnsKept
      (closeIssuance env record certID jobID outcome) := by
  cases outcome with
  | ok _ =>
      exact .bind ColumnsKept.trans
        (columns_of_aside (finishCertificateJob_aside env jobID _ _))
        fun _ => columns_of_aside (fireTasks_aside env _ _ _)
  | error cause =>
      refine .bind ColumnsKept.trans ?_ fun _ => .bind ColumnsKept.trans
        (columns_of_aside (finishCertificateJob_aside env jobID _ _))
        fun _ => .throw ColumnsKept.refl _
      exact .bind ColumnsKept.trans (.attempt (columns_of_records
        (.call RecordsKept.refl fun _ => rfl))) fun _ =>
          .pure ColumnsKept.refl _

theorem issueForRecord_columns (env : Env) (record : Record)
    (source : IssuanceSource) :
    Prog.Keeps o ColumnsKept (issueForRecord env record source) := by
  have hrun : Prog.Keeps o ColumnsKept (runIssuance env record source) := by
    refine .bind ColumnsKept.trans (.mapError (columns_of_records
      (ensureCertificateRow_records o record _)) _) fun certID => ?_
    refine .bind ColumnsKept.trans (.mapError (columns_of_aside
      (createCertificateJob_aside env _ _ _)) _) fun jobID => ?_
    exact .bind ColumnsKept.trans
      (.attempt (obtainAndStore_columns env record certID))
      fun outcome => closeIssuance_columns env record certID jobID outcome
  refine .bind ColumnsKept.trans
    (columns_of_records (takeSlot_records o env record)) fun _ => ?_
  refine .bind ColumnsKept.trans (.attempt hrun) fun result => ?_
  exact .bind ColumnsKept.trans (.modify fun _ _ => rfl) fun _ =>
    .ofExcept ColumnsKept.refl _

end ColumnsKept

/-! ## One row -/

/-- The record with this id is in the table and configured for certificates. -/
def ForCertificates (w : World) (id : Int) : Prop :=
  ∃ record, w.records.find? id = some record ∧
    recordDoesCert record.purpose = true

theorem forCertificates_congr {w w' : World} (h : ColumnsKept w w')
    (id : Int) : ForCertificates w' id ↔ ForCertificates w id := by
  have hpurpose : ∀ w : World, ForCertificates w id ↔
      ((w.records.find? id).map savedColumns).any
        (fun r => recordDoesCert r.purpose) = true := by
    intro w
    unfold ForCertificates
    cases w.records.find? id with
    | none => simp
    | some r => simp [savedColumns]
  rw [hpurpose, hpurpose, h id]

/-- What the pass does for a row is about the row's record, and an issuance is
attempted for each record configured for certificates that can be loaded. -/
def Answers (w : World) (cert : Certificate) : Attempt → Prop
  | .loadFailed id => id = cert.recordID
  | .skipped id => id = cert.recordID ∧ ¬ForCertificates w id
  | .issued id _ => id = cert.recordID ∧ ForCertificates w id

theorem attemptOne_ok (env : Env) (cert : Certificate) (w₀ : World)
    (o : Oracle Call) (s : Sys World) (hs : ColumnsKept w₀ s.state) :
    (attemptOne env cert).wpOk o s fun attempt t =>
      ColumnsKept w₀ t.state ∧ Answers w₀ cert attempt := by
  unfold attemptOne
  refine Prog.wpOk_bind (Prog.wpOk_of_wp ?_)
  rw [Prog.wp_attempt]
  refine Prog.wp_mono (getRecord_spec o s cert.recordID) ?_
  rintro (err | record) t ⟨hstate, hfound⟩ loaded hloaded
  · obtain rfl := Except.ok.inj hloaded
    exact Prog.wpOk_pure ⟨hstate ▸ hs, rfl⟩
  obtain rfl := Except.ok.inj hloaded
  have hfind := hfound record rfl
  have hid : record.id = cert.recordID := Table.find?_key hfind
  have hcert : ForCertificates w₀ record.id ↔
      recordDoesCert record.purpose = true := by
    rw [← forCertificates_congr hs, hid]
    refine ⟨?_, fun h => ⟨record, hfind, h⟩⟩
    rintro ⟨record', hfind', h⟩
    obtain rfl := Option.some.inj (hfind.symm.trans hfind')
    exact h
  dsimp only
  split
  · next hpurpose =>
    refine Prog.wpOk_bind (Prog.wpOk_mono (Prog.wpOk_of_keeps
      (issueForRecord_columns env record issuanceSourceScheduled).attempt) ?_)
    intro result u hkept
    rw [hstate] at hkept
    exact Prog.wpOk_pure ⟨ColumnsKept.trans _ _ _ hs hkept, hid,
      hcert.mpr hpurpose⟩
  · next hpurpose =>
    exact Prog.wpOk_pure ⟨hstate ▸ hs, hid, fun h => hpurpose (hcert.mp h)⟩

theorem attemptOne_succeeds (env : Env) (cert : Certificate)
    (o : Oracle Call) : Prog.Succeeds o (attemptOne env cert) := by
  refine .bind (.attempt _) fun loaded => ?_
  cases loaded with
  | error err => exact .pure _
  | ok record => exact .ite (.bind (.attempt _) fun _ => .pure _) (.pure _)

/-! ## The list -/

/-- The rows of the list. -/
def dueRows (env : Env) (w : World) : List Certificate :=
  (w.certificates.rows.filter fun c =>
    c.notAfter.any fun t => t ≤ threshold env).insertionSort renewalOrder

theorem mem_dueRows {env : Env} {w : World} {c : Certificate} :
    c ∈ dueRows env w ↔ c ∈ w.certificates.rows ∧
      ∃ t, c.notAfter = some t ∧ t ≤ threshold env := by
  rw [dueRows, (List.perm_insertionSort _ _).mem_iff, List.mem_filter]
  simp [Option.any_eq_true]

/-- The attempted records are among those of the list, in its order. -/
theorem attempted_sublist {w : World} {certs : List Certificate}
    {attempts : List Attempt} (h : List.Forall₂ (Answers w) certs attempts) :
    (attempted attempts).Sublist (certs.map Certificate.recordID) := by
  induction h with
  | nil => exact .slnil
  | @cons cert attempt certs attempts hone _ ih =>
      cases attempt with
      | loadFailed id => exact ih.cons _
      | skipped id => exact ih.cons _
      | issued id result =>
          obtain rfl : id = cert.recordID := hone.1
          exact ih.cons_cons _

/-- Each row has its attempt, and each attempt its row. -/
theorem answers_of_mem {w : World} {certs : List Certificate}
    {attempts : List Attempt} (h : List.Forall₂ (Answers w) certs attempts) :
    (∀ c ∈ certs, ∃ a ∈ attempts, Answers w c a) ∧
      ∀ a ∈ attempts, ∃ c ∈ certs, Answers w c a := by
  induction h with
  | nil => exact ⟨nofun, nofun⟩
  | cons hone _ ih =>
      refine ⟨fun c hc => ?_, fun a ha => ?_⟩
      · cases List.mem_cons.mp hc with
        | inl heq => exact ⟨_, List.mem_cons_self, heq ▸ hone⟩
        | inr hc' =>
            obtain ⟨a, ha, h⟩ := ih.1 c hc'
            exact ⟨a, List.mem_cons_of_mem _ ha, h⟩
      · cases List.mem_cons.mp ha with
        | inl heq => exact ⟨_, List.mem_cons_self, heq ▸ hone⟩
        | inr ha' =>
            obtain ⟨c, hc, h⟩ := ih.2 a ha'
            exact ⟨c, List.mem_cons_of_mem _ hc, h⟩

theorem mem_attempted {attempts : List Attempt} {id : Int} :
    id ∈ attempted attempts ↔ ∃ result, .issued id result ∈ attempts := by
  rw [attempted, List.mem_filterMap]
  constructor
  · rintro ⟨attempt, hmem, hid⟩
    cases attempt with
    | loadFailed id' => cases hid
    | skipped id' => cases hid
    | issued id' result =>
        obtain rfl := Option.some.inj hid
        exact ⟨result, hmem⟩
  · rintro ⟨result, hmem⟩
    exact ⟨_, hmem, rfl⟩

/-! ## Coverage -/

/-- Issuances were attempted for exactly the records `due`, each once, but for
those that could not be loaded. -/
structure Covers (due : Int → Prop) (attempts : List Attempt) : Prop where
  once : (attempted attempts).Nodup
  only : ∀ id ∈ attempted attempts, due id
  all : ∀ id, due id → id ∈ attempted attempts ∨ .loadFailed id ∈ attempts

/-- The record is configured for certificates and its certificate expires
within the renewal window. -/
def Due (env : Env) (w : World) (id : Int) : Prop :=
  ForCertificates w id ∧ ∃ c ∈ w.certificates.rows, c.recordID = id ∧
    ∃ t, c.notAfter = some t ∧ t ≤ threshold env

/-- The record is configured for certificates and has none that is valid beyond
the renewal window. -/
def Needed (env : Env) (w : World) (id : Int) : Prop :=
  ForCertificates w id ∧ ¬∃ c ∈ w.certificates.rows, c.recordID = id ∧
    ∃ t, c.notAfter = some t ∧ threshold env < t

/-- A record has at most one certificate row: the `UNIQUE` key of the
table. -/
def OnePerRecord (w : World) : Prop :=
  (w.certificates.rows.map Certificate.recordID).Nodup

/-- A record whose certificate is due has no other that is valid. -/
theorem Due.needed {env : Env} {w : World} {id : Int}
    (hunique : OnePerRecord w) (h : Due env w id) : Needed env w id := by
  obtain ⟨hcert, c, hc, hid, t, hexpiry, hdue⟩ := h
  refine ⟨hcert, ?_⟩
  rintro ⟨c', hc', hid', t', hexpiry', hlate⟩
  have hsame : c = c' :=
    List.inj_on_of_nodup_map hunique hc hc' (hid.trans hid'.symm)
  rw [← hsame, hexpiry] at hexpiry'
  have ht : t = t' := Option.some.inj hexpiry'
  omega

/-- What is covered by attempts that answer the list. -/
theorem covers_of_answers {env : Env} {w : World} {attempts : List Attempt}
    (hunique : OnePerRecord w)
    (h : List.Forall₂ (Answers w) (dueRows env w) attempts) :
    Covers (Due env w) attempts where
  once := by
    have hsublist : ((w.certificates.rows.filter fun c =>
        c.notAfter.any fun t => t ≤ threshold env).map
          Certificate.recordID).Nodup :=
      hunique.sublist (List.filter_sublist.map _)
    have hperm := (List.perm_insertionSort renewalOrder
      (w.certificates.rows.filter fun c =>
        c.notAfter.any fun t => t ≤ threshold env)).map Certificate.recordID
    exact (hperm.nodup_iff.mpr hsublist).sublist (attempted_sublist h)
  only := by
    intro id hid
    obtain ⟨result, hmem⟩ := mem_attempted.mp hid
    obtain ⟨c, hc, rfl, hcert⟩ := (answers_of_mem h).2 _ hmem
    obtain ⟨hrow, hexpiry⟩ := mem_dueRows.mp hc
    exact ⟨hcert, c, hrow, rfl, hexpiry⟩
  all := by
    rintro id ⟨hcert, c, hrow, rfl, hexpiry⟩
    obtain ⟨a, ha, hanswer⟩ :=
      (answers_of_mem h).1 c (mem_dueRows.mpr ⟨hrow, hexpiry⟩)
    cases a with
    | loadFailed id => exact .inr (hanswer ▸ ha)
    | skipped id => exact absurd (hanswer.1 ▸ hcert) hanswer.2
    | issued id result =>
        exact .inl (mem_attempted.mpr ⟨result, hanswer.1 ▸ ha⟩)

/-- What a pass answers its list with. -/
theorem renewAttempts_answers (env : Env) (hacme : env.acmeEnabled = true)
    (s : Sys World) (o : Oracle Call) :
    (renewAttempts env).wp o s fun r _ =>
      (∀ attempts, r = .ok attempts →
        List.Forall₂ (Answers s.state) (dueRows env s.state) attempts) ∧
        (o s.clock .listCertificatesForRenewal = .none →
          ∃ attempts, r = .ok attempts) := by
  unfold renewAttempts
  rw [if_neg (not_not.mpr hacme), Prog.wp_bind, Prog.wp_mapError]
  have hloop : ∀ t : Sys World, t.state = s.state →
      (((dueRows env s.state).mapM (attemptOne env)).wp o t fun r _ =>
        ∃ attempts, r = .ok attempts ∧
          List.Forall₂ (Answers s.state) (dueRows env s.state) attempts) := by
    intro t ht
    have hkept : ColumnsKept s.state t.state := ht ▸ ColumnsKept.refl _
    refine (Prog.Succeeds.mapM (fun c => attemptOne_succeeds env c o) _).wp
      (Prog.wpOk_mono (Prog.wpOk_mapM _ t (fun c _ u hu =>
        attemptOne_ok env c s.state o u hu) hkept) ?_)
    exact fun attempts u h => h.2
  unfold listCertificatesForRenewal Prog.query
  refine Prog.wp_call_of ?_ (fun ho => ⟨nofun, ?_⟩) (fun ho => ⟨nofun, ?_⟩)
  · refine Prog.wp_mono (hloop _ rfl) ?_
    rintro r t ⟨attempts, rfl, hanswers⟩
    refine ⟨fun attempts' h => ?_, fun _ => ⟨attempts, rfl⟩⟩
    obtain rfl := Except.ok.inj h
    exact hanswers
  · intro hnone
    rw [hnone] at ho
    cases ho
  · intro hnone
    rw [hnone] at ho
    cases ho

/-- **When nothing is missed**: every pass attempts the records that need a
certificate if and only if each record configured for certificates has a row
with an expiry. -/
theorem renewal_covers_needed_iff (env : Env) (hacme : env.acmeEnabled = true)
    (s : Sys World) (hunique : OnePerRecord s.state) :
    (∀ o, (renewAttempts env).wpOk o s fun attempts _ =>
        Covers (Needed env s.state) attempts) ↔
      ∀ id, ForCertificates s.state id → ∃ c ∈ s.state.certificates.rows,
        c.recordID = id ∧ c.notAfter.isSome = true := by
  constructor
  · intro hall id hcert
    by_contra hnone
    have hneeded : Needed env s.state id := by
      refine ⟨hcert, ?_⟩
      rintro ⟨c, hc, hid, t, hexpiry, _⟩
      exact hnone ⟨c, hc, hid, by rw [hexpiry]; rfl⟩
    obtain ⟨hanswers, hlisted⟩ := renewAttempts_answers env hacme s .quiet
    obtain ⟨attempts, hrun⟩ := hlisted rfl
    have hcovers := hall .quiet attempts _ (Prod.ext hrun rfl)
    -- whatever the pass did for the record, its row is in the list
    have hrow : ∃ a ∈ attempts, ∀ c, Answers s.state c a → c.recordID = id := by
      cases hcovers.all id hneeded with
      | inl hattempted =>
          obtain ⟨result, hmem⟩ := mem_attempted.mp hattempted
          exact ⟨_, hmem, fun c hc => hc.1.symm⟩
      | inr hfailed => exact ⟨_, hfailed, fun c hc => Eq.symm hc⟩
    obtain ⟨a, ha, hid⟩ := hrow
    obtain ⟨c, hc, hanswer⟩ := (answers_of_mem (hanswers attempts hrun)).2 a ha
    obtain ⟨hstored, t, hexpiry, _⟩ := mem_dueRows.mp hc
    exact hnone ⟨c, hstored, hid c hanswer, by rw [hexpiry]; rfl⟩
  · intro hrows o attempts t hrun
    have hanswers := (renewAttempts_answers env hacme s o).1 attempts
      (congrArg Prod.fst hrun)
    have hcovers := covers_of_answers hunique hanswers
    refine ⟨hcovers.once, fun id hid => (hcovers.only id hid).needed hunique,
      fun id hneeded => hcovers.all id ?_⟩
    obtain ⟨c, hc, hid, hsome⟩ := hrows id hneeded.1
    obtain ⟨t, hexpiry⟩ := Option.isSome_iff_exists.mp hsome
    refine ⟨hneeded.1, c, hc, hid, t, hexpiry, ?_⟩
    by_contra hlate
    exact hneeded.2 ⟨c, hc, hid, t, hexpiry, Int.not_le.mp hlate⟩

/-! ## A pass -/

private def renewing : Env := { Env.sample with acmeEnabled := true }

private def forCertificate (id : Int) (name : GoString) : Record :=
  ⟨id, "token", 7, "example.org", name, 60, none, purposeCert, false, none⟩

private def certificateRow (id recordID : Int) (notAfter : Option Int) :
    Certificate :=
  ⟨id, recordID, "www.example.org", "valid", none, notAfter, none, none,
    "cert.pem", "key.pem"⟩

/-- Three records: the certificate of the first has expired, the second has one
without an expiry, and the third has none. -/
private def scanned : World :=
  { World.init fun _ _ => none with
    records := ((Table.empty.insert fun id => forCertificate id "www").insert
      fun id => forCertificate id "mail").insert fun id =>
        forCertificate id "ftp"
    certificates := (Table.empty.insert fun id =>
      certificateRow id 1 (some (-86400))).insert fun id =>
        certificateRow id 2 none }

private theorem scanned_one : OnePerRecord scanned := by
  unfold OnePerRecord
  decide

end Hdns.Ports.Renewal

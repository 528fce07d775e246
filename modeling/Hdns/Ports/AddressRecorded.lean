import Hdns.Ports.RefreshReports

/-!
# The address a record is shown with

`GetRecords` shows a record with the address row its `address_id` names.  The
column is set by `UpdateRecord`, behind the request that writes the A record
set.  Where the record set begins with the address already, neither is written:
a new row with the same IPv4 address, or a record set that was made by hand,
leaves the column as it was.

## Main results

* `operation_uniqueNames` — the unique key of the records is kept.
* `recorded_address_agrees_iff` — when the passes that take a record for up to
  date leave it with the address they applied.
-/

namespace Hdns.Ports.AddressRecorded

open Hdns.Verified
open Hdns.Verified.GoString
open Hdns.Ports.Schema
open Hdns.Ports.UpdateAddress
open Hdns.Ports.Hetzner
open Hdns.Ports.Tasks
open Hdns.Ports.Service
open Hdns.Ports.Records
open Hdns.Ports.Operations
open Hdns.Ports.IssuanceSteps
open Hdns.Ports.Convergence
open Hdns.Ports.RefreshReports

/-! ## The unique key of the records -/

/-- No two rows share an A record set. -/
def UniqueNames (w : World) : Prop :=
  ∀ a ∈ w.records.rows, ∀ b ∈ w.records.rows,
    a.zoneID = b.zoneID → a.name = b.name → a.id = b.id

theorem uniqueNames_init (zones : Zones) : UniqueNames (World.init zones) :=
  fun _ ha => nomatch ha

/-- What happens beside the saves keeps the key. -/
theorem UniqueNames.kept {w w' : World} (h : UniqueNames w)
    (hrecords : ∀ id, (w'.records.find? id).map savedColumns =
      (w.records.find? id).map savedColumns) : UniqueNames w' := by
  have hold : ∀ a ∈ w'.records.rows, ∃ b ∈ w.records.rows,
      savedColumns b = savedColumns a := by
    intro a ha
    have hrow := hrecords a.id
    rw [show w'.records.find? a.id = some a from Table.find?_of_mem ha] at hrow
    obtain ⟨b, hb, hcols⟩ := Option.map_eq_some_iff.mp hrow.symm
    exact ⟨b, Table.find?_mem hb, hcols⟩
  intro a ha b hb hzone hname
  obtain ⟨a', ha', hcols⟩ := hold a ha
  obtain ⟨b', hb', hcols'⟩ := hold b hb
  have hzone' : a'.zoneID = b'.zoneID :=
    (congrArg Record.zoneID hcols).trans
      (hzone.trans (congrArg Record.zoneID hcols').symm)
  have hname' : a'.name = b'.name :=
    (congrArg Record.name hcols).trans
      (hname.trans (congrArg Record.name hcols').symm)
  have hid : a'.id = b'.id := h a' ha' b' hb' hzone' hname'
  have hida := congrArg Record.id hcols
  have hidb := congrArg Record.id hcols'
  change a'.id = a.id at hida
  change b'.id = b.id at hidb
  rw [← hida, hid, hidb]

/-- A preorder on worlds for the key. -/
def NamesKept (w w' : World) : Prop := UniqueNames w → UniqueNames w'

theorem NamesKept.refl (w : World) : NamesKept w w := id

theorem NamesKept.trans (w₁ w₂ w₃ : World) (h : NamesKept w₁ w₂)
    (h' : NamesKept w₂ w₃) : NamesKept w₁ w₃ := h' ∘ h

theorem namesKept_of_records (w w' : World) (h : RecordsKept w w') :
    NamesKept w w' := fun hw => hw.kept fun id => by rw [h]

theorem namesKept_of_aside (w w' : World) (h : Aside w w') : NamesKept w w' :=
  fun hw => hw.kept h.records

/-- A row that is not taken has no row beside it with its record set. -/
private theorem not_taken {collate : GoString → GoString} {p : RecordParams}
    {id : Int} {t : Table Record} (h : ¬p.taken collate id t = true)
    {r : Record} (hr : r ∈ t.rows) (hid : r.id ≠ id)
    (hzone : r.zoneID = p.zoneID) : r.name ≠ p.name := by
  intro hname
  refine h (List.any_eq_true.mpr ⟨r, hr, ?_⟩)
  simp [hid, hzone, hname]

section Statements

variable (o : Oracle Call) (env : Env)

theorem createRecord_names (p : RecordParams) :
    Prog.Keeps o NamesKept (createRecord env p) := by
  refine .call NamesKept.refl fun w => ?_
  split
  · exact NamesKept.refl w
  split
  · exact fun hw => hw
  · next hfree =>
    have hother : ∀ r ∈ w.records.rows, r.zoneID = p.zoneID →
        r.name ≠ p.name := by
      intro r hr
      exact not_taken hfree hr (Int.ne_of_lt (w.records.fresh r hr))
    intro hw a ha b hb hzone hname
    rw [Table.rows_insert] at ha hb
    rcases List.mem_append.mp ha with ha | ha <;>
      rcases List.mem_append.mp hb with hb | hb
    · exact hw a ha b hb hzone hname
    · obtain rfl := List.mem_singleton.mp hb
      exact absurd hname (hother a ha hzone)
    · obtain rfl := List.mem_singleton.mp ha
      exact absurd hname.symm (hother b hb hzone.symm)
    · rw [List.mem_singleton.mp ha, List.mem_singleton.mp hb]

theorem updateRecordRow_names (id : Int) (p : RecordParams) :
    Prog.Keeps o NamesKept (updateRecordRow env id p) := by
  refine .call NamesKept.refl fun w => ?_
  split
  · exact NamesKept.refl w
  split
  · exact NamesKept.refl w
  split
  · exact NamesKept.refl w
  · next hfree =>
    intro hw a ha b hb hzone hname
    rw [Table.rows_updateWhere] at ha hb
    obtain ⟨a, hma, rfl⟩ := List.mem_map.mp ha
    obtain ⟨b, hmb, rfl⟩ := List.mem_map.mp hb
    by_cases hida : a.id = id <;> by_cases hidb : b.id = id
    · simp [hida, hidb]
    · simp only [hida, hidb, beq_self_eq_true, if_true, beq_iff_eq,
        if_false] at hzone hname
      exact absurd hname.symm (not_taken hfree hmb hidb hzone.symm)
    · simp only [hida, hidb, beq_self_eq_true, if_true, beq_iff_eq,
        if_false] at hzone hname
      exact absurd hname (not_taken hfree hma hida hzone)
    · simp only [hida, hidb, beq_iff_eq, if_false] at hzone hname ⊢
      exact hw a hma b hmb hzone hname

theorem saveRecord_names (input : RecordInput) (encrypted : GoString) :
    Prog.Keeps o NamesKept (saveRecord env input encrypted) := by
  refine .bind NamesKept.trans (.bind NamesKept.trans ?_ fun token => ?_)
    fun _ => .mapError (.query NamesKept.refl) _
  · refine .ite (fun _ => ?_) fun _ => .pure NamesKept.refl _
    exact .bind NamesKept.trans (.mapError (.query NamesKept.refl) _)
      fun _ => .pure NamesKept.refl _
  · refine .ite (fun _ => .mapError (createRecord_names o env _) _)
      fun _ => ?_
    exact .bind NamesKept.trans (.mapError (updateRecordRow_names o env _ _) _)
      fun _ => .pure NamesKept.refl _

theorem refreshOne_aside (address : Address) (report : Report) (r : Record) :
    Prog.Keeps o Aside (refreshOne env address report r) := by
  refine refreshOne_keeps Aside.refl Aside.trans env (fun _ => ?_)
    (fireTasks_aside env _ _ _) report
  exact refreshRecordStatus_keeps Aside.refl Aside.trans env fun _ _ =>
    updateRecord_aside env r address

theorem certificateOne_aside (report : Report) (r : Record) :
    Prog.Keeps o Aside (certificateOne env report r) := by
  refine .ite (fun _ => ?_) fun _ => .pure Aside.refl _
  exact .bind Aside.trans (.attempt (.query Aside.refl)) fun _ =>
    .pure Aside.refl _

theorem sendReport_aside (report : Report) :
    Prog.Keeps o Aside (sendReport report) :=
  .modify fun _ => ⟨rfl, rfl, fun _ => rfl⟩

theorem refreshAll_aside (address : Address) :
    Prog.Keeps o Aside (refreshAll env address) := by
  refine .bind Aside.trans (.attempt (.mapError (.query Aside.refl) _))
    fun listed => ?_
  cases listed with
  | error err =>
      exact .bind Aside.trans (sendReport_aside o _) fun _ =>
        .throw Aside.refl _
  | ok records =>
      refine .bind Aside.trans (.foldlM Aside.refl Aside.trans
        (refreshOne_aside o env address) _ _) fun report => ?_
      refine .bind Aside.trans (.foldlM Aside.refl Aside.trans
        (certificateOne_aside o env) _ _) fun report => ?_
      exact .ite (fun _ => sendReport_aside o _) fun _ =>
        .ite (fun _ => sendReport_aside o _) fun _ => .pure Aside.refl _

/-! ### The operations -/

theorem updateAddress_names : Prog.Keeps o NamesKept (updateAddress env) :=
  fun s => Prog.wp_mono (updateAddress_spec env o s) fun _ _ hsaved =>
    namesKept_of_records _ _ (by rw [RecordsKept, hsaved.frame])

theorem refresh_names : Prog.Keeps o NamesKept (refresh env) := by
  refine .bind NamesKept.trans (.attempt (updateAddress_names o env))
    fun saved => ?_
  cases saved with
  | error err =>
      refine .bind NamesKept.trans (.modify fun _ => ?_) fun _ =>
        .throw NamesKept.refl _
      exact namesKept_of_records _ _ rfl
  | ok address => exact (refreshAll_aside o env address).mono namesKept_of_aside

theorem upsertRecord_names (input : RecordInput) :
    Prog.Keeps o NamesKept (upsertRecord env input) := by
  refine .bind NamesKept.trans (.ofExcept NamesKept.refl _) fun encrypted => ?_
  refine .bind NamesKept.trans (.mapError (saveRecord_names o env _ _) _)
    fun record => ?_
  refine .bind NamesKept.trans (.mapError
    ((refreshRecord_aside env record).mono namesKept_of_aside) _)
    fun record => ?_
  exact .bind NamesKept.trans
    ((issueAfterSave_records o env record).mono namesKept_of_records)
    fun _ => (answer_records o record).mono namesKept_of_records

theorem serverRefreshRecord_names (id : Int) :
    Prog.Keeps o NamesKept (Server.refreshRecord env id) := by
  refine .bind NamesKept.trans (.mapError ?_ _) fun _ =>
    .pure NamesKept.refl _
  refine .bind NamesKept.trans (.mapError (.query NamesKept.refl) _)
    fun record => ?_
  refine .bind NamesKept.trans (.mapError (updateAddress_names o env) _)
    fun address => ?_
  exact .bind NamesKept.trans (.mapError
    ((updateRecord_aside env record address).mono namesKept_of_aside) _)
    fun _ => .pure NamesKept.refl _

end Statements

/-- **The unique key.**  Whatever fails, an operation keeps the record sets of
the rows apart. -/
theorem operation_uniqueNames (op : Op) {w : World}
    (hop : ∀ c, op ≠ .elsewhere c) (h : UniqueNames w) :
    UniqueNames (op.apply w) := by
  cases op with
  | refresh env o => exact refresh_names o env ⟨w, 0⟩ h
  | upsertRecord env o input => exact upsertRecord_names o env input ⟨w, 0⟩ h
  | serverRefreshRecord env o id =>
      exact serverRefreshRecord_names o env id ⟨w, 0⟩ h
  | serverRefreshAddress env o =>
      have hkeeps : Prog.Keeps o NamesKept (Server.refreshAddress env) :=
        .bind NamesKept.trans (.mapError (updateAddress_names o env) _)
          fun _ => .pure NamesKept.refl _
      exact hkeeps ⟨w, 0⟩ h
  | elsewhere c => exact absurd rfl (hop c)

/-- The states that are reached from a new database, while nothing else breaks
the key. -/
theorem run_uniqueNames (zones : Zones) (ops : List Op) (w : World)
    (halong : operations.Along (fun w op => ∀ c, op = .elsewhere c →
      UniqueNames (op.apply w)) (World.init zones) ops)
    (hrun : operations.run (World.init zones) ops = some w) :
    UniqueNames w := by
  refine Machine.invariant_along ?_ ops _ w (uniqueNames_init zones) halong hrun
  intro w op w' h helse hstep
  obtain rfl := Option.some.inj hstep
  by_cases hop : ∃ c, op = .elsewhere c
  · obtain ⟨c, rfl⟩ := hop
    exact helse c rfl
  · exact operation_uniqueNames op (fun c hc => hop ⟨c, hc⟩) h

/-! ## Shown and carried addresses -/

/-- The first value of the A record set of a record. -/
def first (w : World) (r : Record) : Option GoString :=
  (rrset w r).bind fun found => found.values.head?

/-- The address `GetRecords` shows the record with. -/
def shownAddress (w : World) (recordID : Int) : Option Address :=
  match w.records.find? recordID with
  | none => none
  | some row => row.addressID.bind w.addresses.find?

/-- The record's row names the address, which is the one it is shown with and
the one its A record set carries. -/
structure Agrees (address : Address) (w : World) (r : Record) : Prop where
  recorded : w.records.column Record.addressID r.id = some (some address.id)
  shown : shownAddress w r.id = some address
  carried : ∃ ip, address.ipv4 = some ip ∧ first w r = some ip

/-- The record's token can be decrypted, its A record set begins with the
address, and its row names another address or none. -/
structure Unrecorded (env : Env) (address : Address) (w : World) (r : Record) :
    Prop where
  token : ∃ token, clientForRecord env r = .ok token
  carried : ∃ ip, address.ipv4 = some ip ∧ first w r = some ip
  recorded : w.records.column Record.addressID r.id ≠ some (some address.id)

theorem agrees_of_column {address : Address} {w : World} {r : Record}
    (hstored : w.addresses.find? address.id = some address)
    (hrecorded : w.records.column Record.addressID r.id =
      some (some address.id))
    (hcarried : ∃ ip, address.ipv4 = some ip ∧ first w r = some ip) :
    Agrees address w r where
  recorded := hrecorded
  shown := by
    obtain ⟨row, hrow, haddress⟩ := Option.map_eq_some_iff.mp hrecorded
    unfold shownAddress
    simp [hrow, haddress, hstored]
  carried := hcarried

theorem first_of_converged {address : Address} {ip : GoString} {w : World}
    {r : Record} (hip : address.ipv4 = some ip)
    (h : Converged address.ipv4.string w r) : first w r = some ip := by
  obtain ⟨found, hfound, hvalues⟩ := h
  rw [first, hfound, hip] at *
  simp [hvalues, NullString.string]

section Frame

variable {address : Address} {r r' : Record} {w w' : World}

/-- No processing with the same address undoes the agreement. -/
theorem Agrees.applies (h : Agrees address w r)
    (hstored : w.addresses.find? address.id = some address)
    (happlies : Applies r' address w w') : Agrees address w' r := by
  refine agrees_of_column (by rw [happlies.addresses, hstored]) ?_ ?_
  · rcases happlies.recorded r.id with hkept | ⟨-, hset⟩
    · rw [hkept, h.recorded]
    · exact hset
  · obtain ⟨ip, hip, hfirst⟩ := h.carried
    refine ⟨ip, hip, ?_⟩
    rcases happlies.carried r with hkept | ⟨-, hset⟩
    · rw [first, hkept]
      exact hfirst
    · exact first_of_converged hip hset

/-- Two records with rows and record sets of their own. -/
def Apart (a b : Record) : Prop :=
  a.id ≠ b.id ∧ ¬(a.zoneID = b.zoneID ∧ a.name = b.name)

/-- The processing of another record changes nothing about this one. -/
theorem unrecorded_applies (hapart : Apart r r')
    (happlies : Applies r' address w w') (env : Env) :
    Unrecorded env address w' r ↔ Unrecorded env address w r := by
  have hfirst : first w' r = first w r := by
    rcases happlies.carried r with hkept | ⟨hkey, -⟩
    · rw [first, hkept, first]
    · exact absurd hkey hapart.2
  have hcolumn : w'.records.column Record.addressID r.id =
      w.records.column Record.addressID r.id := by
    rcases happlies.recorded r.id with hkept | ⟨hid, -⟩
    · exact hkept
    · exact absurd hid hapart.1
  constructor
  · rintro ⟨htoken, hcarried, hrecorded⟩
    exact ⟨htoken, hfirst ▸ hcarried, hcolumn ▸ hrecorded⟩
  · rintro ⟨htoken, hcarried, hrecorded⟩
    exact ⟨htoken, hfirst ▸ hcarried, hcolumn ▸ hrecorded⟩

/-- The row of a record stays. -/
theorem isSome_applies (hrow : (w.records.find? r.id).isSome = true)
    (happlies : Applies r' address w w') :
    (w'.records.find? r.id).isSome = true := by
  rcases happlies.recorded r.id with hkept | ⟨-, hset⟩
  · have hmap := congrArg Option.isSome hkept
    simp only [Table.column, Option.isSome_map] at hmap
    rw [hmap, hrow]
  · have hmap := congrArg Option.isSome hset
    simpa only [Table.column, Option.isSome_map, Option.isSome_some] using hmap

end Frame

/-! ## One record -/

section One

variable {env : Env} {address : Address} {r : Record} {o : Oracle Call}
  {s : Sys World}

/-- A statement that is answered has set the column. -/
theorem updateRecordAddress_recorded
    (hrow : (s.state.records.find? r.id).isSome = true) :
    (updateRecordAddress address.id r.id).wpOk o s fun _ t =>
      t.state.records.column Record.addressID r.id =
        some (some address.id) := by
  obtain ⟨row, hrow⟩ := Option.isSome_iff_exists.mp hrow
  have hkey : row.id = r.id := Table.find?_key hrow
  refine Prog.wpOk_call fun _ hact => ?_
  split at hact
  · cases hact
  · next hfree =>
    rw [if_neg hfree, Table.column]
    show Option.map _ ((s.state.records.updateWhere _ _).find? r.id) = _
    rw [Table.find?_updateWhere, hrow]
    simp [hkey]

/-- A call of `UpdateRecord` that returns nil leaves the record with the
address. -/
theorem updateRecord_agrees {ip : GoString} (hip : address.ipv4 = some ip)
    (hstored : s.state.addresses.find? address.id = some address)
    (hrow : (s.state.records.find? r.id).isSome = true) :
    (updateRecord env r address).wpOk o s fun _ t =>
      Agrees address t.state r := by
  have hcolumn : (updateRecord env r address).wpOk o s fun _ t =>
      t.state.records.column Record.addressID r.id =
        some (some address.id) := by
    refine Prog.wpOk_bind (Prog.wpOk_ofExcept fun _ _ => ?_)
    refine Prog.wpOk_bind (Prog.wpOk_mapError (Prog.wpOk_mono
      (Prog.wpOk_of_keeps (upsertResourceRecordSet_records o r address _)) ?_))
    intro _ t hkept
    refine Prog.wpOk_bind (Prog.wpOk_mapError (Prog.wpOk_mono
      (updateRecordAddress_recorded (by rw [hkept]; exact hrow)) ?_))
    exact fun _ u hset => Prog.wpOk_pure hset
  have hkeeps : Prog.Keeps o (Applies r address) (updateRecord env r address) :=
    updateRecord_applies o env
  refine Prog.wpOk_mono (Prog.wpOk_and hcolumn (Prog.wpOk_and
    (updateRecord_ok hip) (Prog.wpOk_of_keeps hkeeps))) ?_
  rintro _ t ⟨hset, hcarried, happlies⟩
  refine agrees_of_column (by rw [happlies.addresses, hstored]) hset
    ⟨ip, hip, ?_⟩
  exact first_of_converged hip (by rw [hip]; exact hcarried)

/-- A record set that begins with the address names it, or is not recorded. -/
theorem agrees_of_first {ip : GoString} (hip : address.ipv4 = some ip)
    (hstored : s.state.addresses.find? address.id = some address)
    (htoken : ∃ token, clientForRecord env r = .ok token)
    (hfirst : first s.state r = some ip)
    (hseen : ¬Unrecorded env address s.state r) :
    Agrees address s.state r := by
  refine agrees_of_column hstored ?_ ⟨ip, hip, hfirst⟩
  by_contra hother
  exact hseen ⟨htoken, ⟨ip, hip, hfirst⟩, hother⟩

/-- A record that is said to be up to date agrees, unless nothing was written
and it did not before. -/
theorem refreshRecordStatus_agrees
    (hstored : s.state.addresses.find? address.id = some address)
    (hrow : (s.state.records.find? r.id).isSome = true)
    (hseen : ¬Unrecorded env address s.state r) :
    (refreshRecordStatus env r address).wpOk o s fun status t =>
      Settled status → Agrees address t.state r := by
  unfold refreshRecordStatus
  cases hip : address.ipv4 with
  | none => exact Prog.wpOk_pure fun h => absurd h (not_settled_failed rfl)
  | some ip =>
      refine Prog.wpOk_bind (Prog.wpOk_attempt ?_ fun err t =>
        Prog.wpOk_pure fun h => absurd h (not_settled_failed rfl))
      refine Prog.wpOk_mono (fetchRecord_ok env r) ?_
      rintro found t ⟨hstate, rfl, htoken⟩
      rw [← hstate] at hstored hrow hseen
      dsimp only
      split
      · next hfirst =>
        exact Prog.wpOk_pure fun _ =>
          agrees_of_first hip hstored htoken hfirst hseen
      · refine Prog.wpOk_bind (Prog.wpOk_attempt ?_ fun err t =>
          Prog.wpOk_pure fun h => absurd h (not_settled_failed rfl))
        refine Prog.wpOk_mono (updateRecord_agrees hip hstored hrow) ?_
        exact fun _ u hagrees => Prog.wpOk_pure fun _ => hagrees

/-- Nothing is written for a record that is not recorded, and where nothing
fails it is reported as unchanged. -/
theorem refreshRecordStatus_unrecorded
    (h : Unrecorded env address s.state r) :
    (refreshRecordStatus env r address).wpOk .quiet s fun status t =>
      status.result = resultUnchanged ∧ t.state = s.state := by
  obtain ⟨ip, hip, hfirst⟩ := h.carried
  exact Prog.wpOk_and (refreshRecordStatus_unchanged hip h.token hfirst)
    (refreshRecordStatus_first hip hfirst)

end One

/-! ## The pass -/

section Pass

variable {env : Env} {address : Address} {o : Oracle Call}

/-- What the processing of each record keeps, the pass keeps. -/
theorem processed_keeps {P : World → Prop} {s t : Sys World}
    {records : List Record} {statuses : List RecordStatus}
    (h : Processed env address o s records statuses t)
    (hP : ∀ r ∈ records, ∀ w w', Applies r address w w' → P w → P w')
    (hs : P s.state) : P t.state := by
  induction h with
  | nil _ => exact hs
  | cons hstatus hcount _ ih =>
      refine ih (fun r hr => hP r (List.mem_cons_of_mem _ hr)) ?_
      exact hP _ List.mem_cons_self _ _ (applies_step hstatus hcount) hs

/-- A pass that finds nothing unrecorded leaves the records it reports as
updated or unchanged with the address. -/
theorem processed_agrees {s t : Sys World} {records : List Record}
    {statuses : List RecordStatus}
    (h : Processed env address o s records statuses t)
    (hapart : records.Pairwise Apart)
    (hstored : s.state.addresses.find? address.id = some address)
    (hrows : ∀ r ∈ records, (s.state.records.find? r.id).isSome = true)
    (hseen : ∀ r ∈ records, ¬Unrecorded env address s.state r) :
    List.Forall₂ (fun r status => Settled status → Agrees address t.state r)
      records statuses := by
  induction h with
  | nil _ => exact .nil
  | @cons s t u v r records status statuses _ _ hstatus hcount hrest ih =>
      obtain ⟨hhead, htail⟩ := List.pairwise_cons.mp hapart
      have happlies := applies_step hstatus hcount
      have hstored' : u.state.addresses.find? address.id = some address := by
        rw [happlies.addresses, hstored]
      refine .cons (fun hsettled => ?_) (ih htail hstored' ?_ ?_)
      · have hagrees : Agrees address t.state r :=
          refreshRecordStatus_agrees hstored (hrows r List.mem_cons_self)
            (hseen r List.mem_cons_self) status t hstatus hsettled
        have hagreed : Agrees address u.state r :=
          hagrees.applies (by rw [(applies_status hstatus).addresses, hstored])
            (applies_count hcount)
        have hkept := processed_keeps (P := fun w =>
          w.addresses.find? address.id = some address ∧ Agrees address w r)
          hrest (fun r' _ w w' happlies' h => ⟨by rw [happlies'.addresses, h.1],
            h.2.applies h.1 happlies'⟩) ⟨hstored', hagreed⟩
        exact hkept.2
      · intro r' hr'
        exact isSome_applies (hrows r' (List.mem_cons_of_mem r hr')) happlies
      · intro r' hr' hun
        have hapart' : Apart r' r :=
          ⟨(hhead r' hr').1.symm, fun hkey =>
            (hhead r' hr').2 ⟨hkey.1.symm, hkey.2.symm⟩⟩
        exact hseen r' (List.mem_cons_of_mem r hr')
          ((unrecorded_applies hapart' happlies env).mp hun)

/-- A record that nothing is recorded for is settled all the same. -/
theorem processed_unrecorded {s t : Sys World} {records : List Record}
    {statuses : List RecordStatus}
    (h : Processed env address .quiet s records statuses t)
    (hapart : records.Pairwise Apart) {r₀ : Record} (hr₀ : r₀ ∈ records)
    (hun : Unrecorded env address s.state r₀) :
    Unrecorded env address t.state r₀ ∧
      ∃ status, (r₀, status) ∈ records.zip statuses ∧ Settled status := by
  induction h with
  | nil _ => cases hr₀
  | @cons s t u v r records status statuses report _ hstatus hcount hrest ih =>
      obtain ⟨hhead, htail⟩ := List.pairwise_cons.mp hapart
      rcases List.mem_cons.mp hr₀ with rfl | hmem
      · obtain ⟨hresult, hstate⟩ :=
          refreshRecordStatus_unrecorded hun status t hstatus
        have hu : u = t := by
          rw [hresult] at hcount
          exact (Prod.mk.inj hcount).2.symm
        refine ⟨processed_keeps hrest (fun r' hr' w w' happlies =>
          (unrecorded_applies (hhead r' hr') happlies env).mpr) ?_,
          status, List.mem_cons_self, .inr hresult⟩
        rw [hu, hstate]
        exact hun
      · have hapart' : Apart r₀ r :=
          ⟨(hhead r₀ hmem).1.symm, fun hkey =>
            (hhead r₀ hmem).2 ⟨hkey.1.symm, hkey.2.symm⟩⟩
        obtain ⟨hun', status', hzip, hsettled⟩ := ih htail hmem
          ((unrecorded_applies hapart' (applies_step hstatus hcount) env).mpr
            hun)
        exact ⟨hun', status', List.mem_cons_of_mem _ hzip, hsettled⟩

end Pass

/-! ## `dns.RefreshRecord` -/

section Single

variable {env : Env} {address : Address} {r : Record} {s : Sys World}

theorem applyCurrent_agrees {ip : GoString} (hip : address.ipv4 = some ip)
    (hstored : s.state.addresses.find? address.id = some address)
    (hrow : (s.state.records.find? r.id).isSome = true)
    (hseen : ¬Unrecorded env address s.state r) (o : Oracle Call) :
    (applyCurrent env r address ip).wpOk o s fun _ t =>
      Agrees address t.state r := by
  refine Prog.wpOk_bind (Prog.wpOk_mono (fetchRecord_ok env r) ?_)
  rintro found t ⟨hstate, rfl, htoken⟩
  rw [← hstate] at hstored hrow hseen
  split
  · next hfirst =>
    exact Prog.wpOk_pure (agrees_of_first hip hstored htoken hfirst hseen)
  · have hkeeps : Prog.Keeps o (Applies r address)
        (updateRecord env r address) := updateRecord_applies o env
    refine Prog.wpOk_bind (Prog.wpOk_mono (Prog.wpOk_and
      (updateRecord_agrees hip hstored hrow) (Prog.wpOk_of_keeps hkeeps)) ?_)
    rintro r' u ⟨hagrees, happlies⟩
    have hfire : Prog.Keeps o (Applies r address)
        (fireTasks env r'.id triggerIP none) := fireTasks_applies o env _ _ _
    refine Prog.wpOk_bind (Prog.wpOk_mono (Prog.wpOk_of_keeps hfire) ?_)
    exact fun _ v hmoved => Prog.wpOk_pure
      (hagrees.applies (by rw [happlies.addresses, hstored]) hmoved)

theorem refreshRecord_agrees (hddns : recordDoesDDNS r.purpose = true)
    (hcurrent : currentAddress s.state.addresses = some address)
    (hrow : (s.state.records.find? r.id).isSome = true)
    (hseen : ¬Unrecorded env address s.state r) (o : Oracle Call) :
    (refreshRecord env r).wpOk o s fun _ t => Agrees address t.state r := by
  unfold refreshRecord
  rw [if_pos hddns]
  refine Prog.wpOk_bind (Prog.wpOk_mapError (Prog.wpOk_of_wp
    (Prog.wp_mono (getCurrentAddress_spec o s) ?_)))
  rintro _ t ⟨hstate, hread⟩ current rfl
  obtain rfl := Option.some.inj (hcurrent.symm.trans (hread current rfl))
  have hstored : s.state.addresses.find? address.id = some address :=
    Table.find?_of_mem (currentAddress_mem hcurrent)
  rw [← hstate] at hstored hrow hseen
  cases hip : address.ipv4 with
  | none => exact Prog.wpOk_throw _
  | some ip => exact applyCurrent_agrees hip hstored hrow hseen o

/-- Where nothing fails, nothing is written and nil returned for a record that
is not recorded. -/
theorem refreshRecord_unrecorded (hddns : recordDoesDDNS r.purpose = true)
    (hcurrent : currentAddress s.state.addresses = some address)
    (hun : Unrecorded env address s.state r) :
    (refreshRecord env r).wp .quiet s fun res t =>
      res = .ok r ∧ t.state = s.state := by
  obtain ⟨ip, hip, hfirst⟩ := hun.carried
  exact refreshRecord_unchanged hddns hip hcurrent hun.token hfirst

end Single

/-! ## When the addresses agree -/

/-- The rows of a table with the unique key, in any order. -/
theorem pairwise_apart {w : World} (hunique : UniqueNames w)
    {records : List Record} (hlisted : records.Perm w.records.rows) :
    (reported records).Pairwise Apart := by
  have hids : (records.map Record.id).Nodup :=
    (hlisted.map Record.id).nodup_iff.mpr w.records.distinct
  have hpairs : records.Pairwise fun a b => a.id ≠ b.id :=
    List.pairwise_map.mp hids
  refine List.Pairwise.sublist List.filter_sublist
    (hpairs.imp_of_mem fun {a b} ha hb hid => ⟨hid, fun hkey => hid ?_⟩)
  exact hunique a (hlisted.mem_iff.mp ha) b (hlisted.mem_iff.mp hb) hkey.1
    hkey.2

/-- Nothing behind the first loop touches what the agreement is about. -/
theorem agrees_congr {address : Address} {w w' : World} {r : Record}
    (h : w' = { w with events := w'.events }) :
    Agrees address w' r ↔ Agrees address w r := by
  rw [h]
  exact ⟨fun ⟨hr, hs, hc⟩ => ⟨hr, hs, hc⟩, fun ⟨hr, hs, hc⟩ => ⟨hr, hs, hc⟩⟩

/-- **When the recorded address agrees with the zone.**  In every state that
has the unique key, with a stored address: every pass over the listed records,
whatever fails in it, leaves the records it reports as updated or unchanged
with the id of the address and a record set that begins with it, if and only if
no reported record has a record set that begins with the address, a token that
can be decrypted, and another `address_id`; the same for
`dns.RefreshRecord`. -/
theorem recorded_address_agrees_iff (env : Env) (address : Address)
    (s : Sys World) (hunique : UniqueNames s.state)
    (hstored : s.state.addresses.find? address.id = some address) :
    (∀ records : List Record, records.Perm s.state.records.rows →
      ((∀ o, (refreshReport env address records (firstReport address)).wp o s
        fun res t => ∃ report, res = .ok report ∧
          List.Forall₂
            (fun r status => Settled status → Agrees address t.state r)
            (reported records) report.records) ↔
        ∀ r ∈ reported records, ¬Unrecorded env address s.state r)) ∧
      ∀ r : Record, recordDoesDDNS r.purpose = true →
        s.state.records.find? r.id = some r →
        currentAddress s.state.addresses = some address →
          ((∀ o, (refreshRecord env r).wpOk o s fun _ t =>
            Agrees address t.state r) ↔
              ¬Unrecorded env address s.state r) := by
  refine ⟨fun records hlisted => ?_, fun r hddns hrow hcurrent => ?_⟩
  · have hapart := pairwise_apart hunique hlisted
    have hpass : ∀ o, ∃ report u, (refreshReport env address records
        (firstReport address) o s).1 = .ok report ∧
        Processed env address o s (reported records) report.records u ∧
        ∀ r, Agrees address (refreshReport env address records
          (firstReport address) o s).2.state r ↔ Agrees address u.state r := by
      intro o
      obtain ⟨report, hreport⟩ :=
        refreshReport_succeeds o env address records (firstReport address) s
      obtain ⟨loop, u, hloop, hstate, rfl⟩ := refreshReport_reports env
        address o records s report _ (Prod.ext hreport rfl)
      obtain ⟨statuses, hrecords, hprocessed⟩ := hloop.processed
      obtain rfl : loop.records = statuses := by
        rw [hrecords]
        rfl
      exact ⟨_, u, hreport, hprocessed, fun r => agrees_congr hstate⟩
    constructor
    · intro hall r₀ hr₀ hun
      obtain ⟨report, u, hreport, hprocessed, hagree⟩ := hpass .quiet
      obtain ⟨hstill, status, hzip, hsettled⟩ :=
        processed_unrecorded hprocessed hapart hr₀ hun
      obtain ⟨report', hreport', hagrees⟩ := hall .quiet
      obtain rfl := Except.ok.inj (hreport.symm.trans hreport')
      have hagreed := (List.forall₂_iff_zip.mp hagrees).2 hzip hsettled
      exact hstill.recorded ((hagree r₀).mp hagreed).recorded
    · intro hseen o
      obtain ⟨report, u, hreport, hprocessed, hagree⟩ := hpass o
      refine ⟨report, hreport, ?_⟩
      have hrows : ∀ r ∈ reported records,
          (s.state.records.find? r.id).isSome = true := by
        intro r hr
        have hmem : r ∈ s.state.records.rows :=
          hlisted.mem_iff.mp (List.mem_filter.mp hr).1
        rw [show s.state.records.find? r.id = some r from
          Table.find?_of_mem hmem]
        rfl
      refine (processed_agrees hprocessed hapart hstored hrows hseen).imp ?_
      exact fun r status h hsettled => (hagree r).mpr (h hsettled)
  · constructor
    · intro hall hun
      obtain ⟨hres, hstate⟩ := refreshRecord_unrecorded hddns hcurrent hun
      have hagrees : Agrees address (refreshRecord env r .quiet s).2.state r :=
        hall .quiet r _ (Prod.ext hres rfl)
      rw [hstate] at hagrees
      exact hun.recorded hagrees.recorded
    · exact fun hseen o => refreshRecord_agrees hddns hcurrent
        (by rw [hrow]; rfl) hseen o

/-- A record as it is created, and its address. -/
private def www : Record :=
  ⟨1, "token", 7, "example.org", "www", 60, none, purposeDDNS, false, none⟩

private def home : Address := ⟨1, some "192.0.2.1", none, true⟩

private def created : World :=
  { World.init fun _ _ => none with
    records := Table.empty.insert fun id => { www with id := id } }

private def addressed : World :=
  { created with
    addresses := Table.empty.insert fun id => { home with id := id } }

theorem recorded_address_agrees_iff_created :
    (refreshReport Env.sample home addressed.records.rows
        (firstReport home)).wp .quiet ⟨addressed, 0⟩ (fun res t =>
          ∃ report, res = .ok report ∧ List.Forall₂ (fun r status =>
            Settled status → Agrees home t.state r)
            (reported addressed.records.rows) report.records) ∧
      (refreshRecord Env.sample www).wpOk .quiet ⟨addressed, 0⟩
        fun _ t => Agrees home t.state www := by
  have hunique : UniqueNames addressed := by
    intro a ha b hb _ _
    rw [List.mem_singleton.mp ha, List.mem_singleton.mp hb]
  have hnone : ∀ r : Record, ¬Unrecorded Env.sample home addressed r := by
    rintro r ⟨_, ⟨ip, _, hfirst⟩, _⟩
    cases hfirst
  have hiff := recorded_address_agrees_iff Env.sample home ⟨addressed, 0⟩
    hunique (by decide)
  exact ⟨(hiff.1 _ (List.Perm.refl _)).mpr (fun r _ => hnone r) .quiet,
    (hiff.2 www (by decide) (by decide) (by decide)).mpr (hnone www) .quiet⟩

/-- The same IPv4 address with another IPv6 address. -/
private def resolving (ipv6 : GoString) : Env :=
  { Env.sample with
    consensus4 := ("192.0.2.1", none)
    consensus6 := (ipv6, none) }

/-- Two passes between which the IPv6 address has changed. -/
private def moved : World :=
  (Op.refresh (resolving "2001:db8::2") .quiet).apply
    ((Op.refresh (resolving "2001:db8::1") .quiet).apply created)

private def former : Address :=
  ⟨1, some "192.0.2.1", some "2001:db8::1", false⟩

private def latter : Address := ⟨2, some "192.0.2.1", some "2001:db8::2", true⟩

private def kept : Record := { www with addressID := some 1 }

/-- A change of the IPv6 address alone leaves the records with the row of the
former pair, and a refresh of such a record returns nil without setting it
right. -/
theorem former_row_stays_recorded :
    currentAddress moved.addresses = some latter ∧
      moved.records.find? 1 = some kept ∧
      first moved kept = some "192.0.2.1" ∧
      shownAddress moved 1 = some former ∧
      (refreshRecord (resolving "2001:db8::2") kept .quiet ⟨moved, 0⟩).1 =
        .ok kept ∧
      ¬Agrees latter (refreshRecord (resolving "2001:db8::2") kept .quiet
        ⟨moved, 0⟩).2.state kept := by
  refine ⟨by decide +kernel, by decide +kernel, by decide +kernel,
    by decide +kernel, by decide +kernel, fun h => ?_⟩
  exact absurd h.recorded (by decide +kernel)

end Hdns.Ports.AddressRecorded

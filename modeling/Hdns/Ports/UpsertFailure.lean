import Hdns.Ports.Operations

/-!
# Saves of a record that fail

`UpsertRecord` stores the record with one statement, and everything it does
afterwards can still fail: the read-back, the lookup of the stored address, the
requests to Hetzner and the statement that stores the address id.  Nothing is
rolled back, so an error says nothing about the table by itself.  This module
says what the table holds after a call, whichever step has failed.

## Main results

* `upsertRecord_rows` — a request whose storing statement takes effect leaves
  the table it asks for, at most with the current address set on the row; any
  other request leaves the rows as they were.  A create that has been stored is
  refused when it is repeated.
-/

namespace Hdns.Ports.UpsertFailure

open Hdns.Verified
open Hdns.Ports.Schema
open Hdns.Ports.UpdateAddress
open Hdns.Ports.Hetzner
open Hdns.Ports.Service
open Hdns.Ports.Records
open Hdns.Ports.Operations

/-! ## What a request asks for -/

/-- The row with these columns. -/
def storedRow (p : RecordParams) (id : Int)
    (addressID : Option Int) : Record :=
  ⟨id, p.token, p.zoneID, p.domain, p.name, p.ttl, addressID, p.purpose,
    p.includeWildcard, p.acmeEmail⟩

/-- The id a request is stored under and the table the storing statement
leaves, unless the database refuses it or there is no row to update. -/
def stored (env : Env) (input : RecordInput) (token : GoString)
    (t : Table Record) : Option (Int × Table Record) :=
  let p := input.params token
  if p.rejected then none
  else if input.id = 0 then
    if p.taken env.collate t.next t then none
    else some (t.next, t.insert fun id => storedRow p id none)
  else if (t.find? input.id).isNone ∨ p.taken env.collate input.id t then none
  else some (input.id, t.updateWhere (fun r => r.id == input.id) fun r =>
    storedRow p r.id r.addressID)

/-- The token the request stores: for an update without one, that of the row,
if it can be read. -/
def tokenFor (o : Oracle Call) (s : Sys World) (input : RecordInput)
    (encrypted : GoString) : Option GoString :=
  if input.id ≠ 0 ∧ input.token = [] then
    if o s.clock .getRecord = .none then
      (s.state.records.find? input.id).map Record.token
    else none
  else some encrypted

/-- The number of the storing statement among the calls. -/
def storeClock (input : RecordInput) (clock : Nat) : Nat :=
  if input.id ≠ 0 ∧ input.token = [] then clock + 1 else clock

def storeCall (input : RecordInput) : Call :=
  if input.id = 0 then .createRecord else .updateRecord

/-- The storing statement of the request takes effect and leaves `table`. -/
def Stores (env : Env) (o : Oracle Call) (s : Sys World) (input : RecordInput)
    (id : Int) (table : Table Record) : Prop :=
  ∃ encrypted token, checkInput env input = .ok encrypted ∧
    tokenFor o s input encrypted = some token ∧
    o (storeClock input s.clock) (storeCall input) ≠ .fails ∧
    stored env input token s.state.records = some (id, table)

/-- The column `address_id` of the row `id` set to `addressID`. -/
def withAddress (id addressID : Int) (t : Table Record) : Table Record :=
  t.updateWhere (fun r => r.id == id)
    (fun r => { r with addressID := some addressID })
    (Record.key_addressed addressID)

/-- The table is `table`, at most with the current address on the row `id`. -/
def Placed (id : Int) (current : Option Address) (table t : Table Record) :
    Prop :=
  t.rows = table.rows ∨
    ∃ a, current = some a ∧ t.rows = (withAddress id a.id table).rows

/-! ## The storing statement -/

/-- The storing statement takes effect and leaves the table of `stored`, or
the rows are as before and no row has the id it returns. -/
private inductive StoreEnds (env : Env) (o : Oracle Call) (s : Sys World)
    (input : RecordInput) (token : GoString) (r : Except GoError Int)
    (t : Sys World) : Prop
  | done (id : Int) (table : Table Record)
      (hreached : o s.clock (storeCall input) ≠ .fails)
      (hstored : stored env input token s.state.records = some (id, table))
      (haddresses : t.state.addresses = s.state.addresses)
      (hrecords : t.state.records = table)
      (hid : ∀ i, r = .ok i → i = id)
  | none
      (hnone : o s.clock (storeCall input) = .fails ∨
        stored env input token s.state.records = none)
      (hrows : t.state.records.rows = s.state.records.rows)
      (hid : ∀ i, r = .ok i → t.state.records.find? i = none)

section StoreRow

variable (env : Env) (o : Oracle Call) (s : Sys World) (input : RecordInput)
  (token : GoString)

private theorem createRecord_ends (h : input.id = 0) :
    (createRecord env (input.params token)).wp o s
      (StoreEnds env o s input token) := by
  have hcall : storeCall input = .createRecord := if_pos h
  unfold createRecord
  refine Prog.wp_mono (Prog.wp_call_cases _ _ _) ?_
  rintro r t ⟨-, ⟨hfails, ht, rfl⟩ | ⟨hreached, ht, hr⟩⟩
  · exact .none (.inl (hcall ▸ hfails)) (by rw [ht]) (by rintro _ ⟨⟩)
  rw [← hcall] at hreached
  have hstored : stored env input token s.state.records =
      if (input.params token).rejected then none
      else if (input.params token).taken env.collate s.state.records.next
        s.state.records then none
      else some (s.state.records.next, s.state.records.insert fun id =>
        storedRow (input.params token) id none) := by
    simp only [stored, h, if_true]
  split at ht
  · next hrejected =>
    rw [if_pos hrejected] at hstored hr
    exact .none (.inr hstored) (by rw [ht]) fun i hi => by
      cases hr i hi
  next hfits =>
  rw [if_neg hfits] at hstored hr
  split at ht
  · next htaken =>
    rw [if_pos htaken] at hstored hr
    exact .none (.inr hstored) (by rw [ht]; rfl) fun i hi => by
      cases hr i hi
  · next hfree =>
    rw [if_neg hfree] at hstored hr
    refine .done _ _ hreached hstored (by rw [ht]) (by rw [ht]; rfl) ?_
    intro i hi
    exact (Except.ok.inj (hr i hi)).symm

private theorem updateRecordRow_ends (h : input.id ≠ 0) :
    (updateRecordRow env input.id (input.params token)).wp o s fun r t =>
      StoreEnds env o s input token (r.map fun _ => input.id) t := by
  have hcall : storeCall input = .updateRecord := if_neg h
  unfold updateRecordRow
  refine Prog.wp_mono (Prog.wp_call_cases _ _ _) ?_
  rintro r t ⟨-, ⟨hfails, ht, rfl⟩ | ⟨hreached, ht, hr⟩⟩
  · exact .none (.inl (hcall ▸ hfails)) (by rw [ht]) (by rintro _ ⟨⟩)
  rw [← hcall] at hreached
  have hstored : stored env input token s.state.records =
      if (input.params token).rejected then none
      else if (s.state.records.find? input.id).isNone ∨
        (input.params token).taken env.collate input.id s.state.records
      then none
      else some (input.id, s.state.records.updateWhere
        (fun r => r.id == input.id) fun r =>
          storedRow (input.params token) r.id r.addressID) := by
    simp only [stored, h, if_false]
  have hrefused : ∀ i, (r.map fun _ => input.id) = .ok i → r = .ok () := by
    intro i hi
    cases r with
    | error err => cases hi
    | ok u => rfl
  split at ht
  · next hgone =>
    refine .none (.inr ?_) (by rw [ht]) ?_
    · rw [hstored]
      simp [hgone]
    · intro i hi
      cases r with
      | error err => cases hi
      | ok u =>
          obtain rfl := Except.ok.inj hi
          rw [ht]
          simpa using hgone
  next hfound =>
  rw [if_neg hfound] at hr
  split at ht
  · next hrejected =>
    rw [if_pos hrejected] at hstored hr
    exact .none (.inr hstored) (by rw [ht]) fun i hi => by
      cases hr () (hrefused i hi)
  next hfits =>
  rw [if_neg hfits] at hstored hr
  split at ht
  · next htaken =>
    rw [if_pos (.inr htaken)] at hstored
    rw [if_pos htaken] at hr
    exact .none (.inr hstored) (by rw [ht]) fun i hi => by
      cases hr () (hrefused i hi)
  · next hfree =>
    rw [if_neg (not_or.mpr ⟨hfound, hfree⟩)] at hstored
    refine .done _ _ hreached hstored (by rw [ht]) (by rw [ht]; rfl) ?_
    intro i hi
    cases r with
    | error err => cases hi
    | ok u => exact (Except.ok.inj hi).symm

/-- An error of the statement is the error of the switch. -/
private theorem StoreEnds.mapError {env : Env} {o : Oracle Call}
    {s : Sys World} {input : RecordInput} {token : GoString}
    {r : Except GoError Int} {t : Sys World}
    (h : StoreEnds env o s input token r t) (f : GoError → GoError) :
    StoreEnds env o s input token (r.mapError f) t := by
  cases h with
  | done id table hreached hstored haddresses hrecords hid =>
      exact .done id table hreached hstored haddresses hrecords
        fun i hi => hid i (Prog.mapError_eq_ok.mp hi)
  | none hnone hrows hid =>
      exact .none hnone hrows fun i hi => hid i (Prog.mapError_eq_ok.mp hi)

private theorem storeRow_ends :
    (storeRow env input token).wp o s (StoreEnds env o s input token) := by
  unfold storeRow
  split
  · next h =>
    rw [Prog.wp_mapError]
    exact Prog.wp_mono (createRecord_ends env o s input token h)
      fun _ _ hends => hends.mapError _
  · next h =>
    rw [Prog.wp_bind, Prog.wp_mapError]
    refine Prog.wp_mono (updateRecordRow_ends env o s input token h) ?_
    intro r t hends
    cases r with
    | error err =>
        exact hends.mapError (.because "failed to update record in database")
    | ok u => exact hends

end StoreRow

/-! ## Saving a record -/

section Save

variable {env : Env} {o : Oracle Call} {s : Sys World} {input : RecordInput}

private theorem storedToken_spec (encrypted : GoString) :
    (storedToken input encrypted).wp o s fun r t =>
      t.state = s.state ∧
        (∀ token, r = .ok token ↔ tokenFor o s input encrypted = some token) ∧
        t.clock = storeClock input s.clock := by
  unfold storedToken tokenFor storeClock
  split
  · rw [Prog.wp_bind, Prog.wp_mapError, getRecord]
    by_cases ho : o s.clock .getRecord = .none
    · rw [Prog.wp_query_none ho]
      cases hfind : s.state.records.find? input.id with
      | none => exact ⟨rfl, by simp [ho], rfl⟩
      | some row =>
          refine ⟨rfl, fun token => ?_, rfl⟩
          show Except.ok row.token = Except.ok token ↔ _
          simp [ho]
    · rw [Prog.wp_query_faulty ho]
      exact ⟨rfl, by simp [ho], rfl⟩
  · refine ⟨rfl, fun token => ?_, rfl⟩
    show Except.ok encrypted = Except.ok token ↔ _
    simp

/-- A save returns a record only when its statement has taken effect; that
record is then the stored row. -/
private inductive SaveEnds (env : Env) (o : Oracle Call) (s : Sys World)
    (input : RecordInput) (r : Except GoError Record) (t : Sys World) : Prop
  | done (id : Int) (table : Table Record)
      (hstores : Stores env o s input id table)
      (haddresses : t.state.addresses = s.state.addresses)
      (hrecords : t.state.records = table)
      (hid : ∀ record, r = .ok record → record.id = id)
  | none (hnone : ∀ id table, ¬Stores env o s input id table)
      (hrows : t.state.records.rows = s.state.records.rows)
      (herr : ∃ err, r = .error err)

private theorem saveRecord_ends {encrypted : GoString}
    (hchecked : checkInput env input = .ok encrypted) :
    (saveRecord env input encrypted).wp o s (SaveEnds env o s input) := by
  unfold saveRecord storeRecord
  rw [Prog.wp_bind, Prog.wp_bind]
  refine Prog.wp_mono (storedToken_spec encrypted) ?_
  rintro r t ⟨ht, hr, hclock⟩
  cases r with
  | error err =>
      refine .none ?_ (by rw [ht]) ⟨_, rfl⟩
      rintro id table ⟨encrypted', token, hchecked', htoken, -⟩
      obtain rfl := Except.ok.inj (hchecked.symm.trans hchecked')
      exact nomatch (hr token).mpr htoken
  | ok token =>
      have htoken : tokenFor o s input encrypted = some token :=
        (hr token).mp rfl
      have hiff : ∀ id table, Stores env o s input id table ↔
          o t.clock (storeCall input) ≠ .fails ∧
            stored env input token t.state.records = some (id, table) := by
        intro id table
        rw [ht, hclock]
        constructor
        · rintro ⟨encrypted', token', hchecked', htoken', hreached, hstored⟩
          obtain rfl := Except.ok.inj (hchecked.symm.trans hchecked')
          obtain rfl := Option.some.inj (htoken.symm.trans htoken')
          exact ⟨hreached, hstored⟩
        · rintro ⟨hreached, hstored⟩
          exact ⟨encrypted, token, hchecked, htoken, hreached, hstored⟩
      refine Prog.wp_mono (storeRow_ends env o t input token) ?_
      intro r u hends
      cases hends with
      | done id table hreached hstored haddresses hrecords hid =>
          have hstores : Stores env o s input id table :=
            (hiff id table).mpr ⟨hreached, hstored⟩
          cases r with
          | error err =>
              exact .done id table hstores (by rw [haddresses, ht]) hrecords
                nofun
          | ok i =>
              obtain rfl := hid i rfl
              show Prog.wp _ o u _
              rw [Prog.wp_mapError]
              refine Prog.wp_mono (getRecord_spec o u i) ?_
              rintro r v ⟨hv, hfound⟩
              refine .done i table hstores (by rw [hv, haddresses, ht])
                (by rw [hv, hrecords]) ?_
              intro record hrecord
              cases r with
              | error err => cases hrecord
              | ok row =>
                  obtain rfl := Except.ok.inj hrecord
                  exact Table.find?_key (hfound row rfl)
      | none hnone hrows hid =>
          have hnot : ∀ id table, ¬Stores env o s input id table := by
            intro id table hstores
            obtain ⟨hreached, hstored⟩ := (hiff id table).mp hstores
            rcases hnone with hfails | hrefused
            · exact hreached hfails
            · exact nomatch hrefused.symm.trans hstored
          cases r with
          | error err => exact .none hnot (by rw [hrows, ht]) ⟨_, rfl⟩
          | ok i =>
              show Prog.wp _ o u _
              rw [Prog.wp_mapError]
              refine Prog.wp_mono (getRecord_spec o u i) ?_
              rintro r v ⟨hv, hfound⟩
              refine .none hnot (by rw [hv, hrows, ht]) ?_
              cases r with
              | error err => exact ⟨_, rfl⟩
              | ok row => exact nomatch (hid i rfl).symm.trans (hfound row rfl)

end Save

/-! ## After the save -/

/-- The rows stay, or the row `id` is given the address `addressID`. -/
private def Addressed (id addressID : Int) (w w' : World) : Prop :=
  w'.records.rows = w.records.rows ∨
    w'.records.rows = (withAddress id addressID w.records).rows

private theorem Addressed.refl (id addressID : Int) (w : World) :
    Addressed id addressID w w := .inl rfl

private theorem Addressed.kept (id addressID : Int) (w w' : World)
    (h : RecordsKept w w') : Addressed id addressID w w' :=
  .inl (congrArg Table.rows h)

private theorem Addressed.trans (id addressID : Int) (w₁ w₂ w₃ : World)
    (h : Addressed id addressID w₁ w₂) (h' : Addressed id addressID w₂ w₃) :
    Addressed id addressID w₁ w₃ := by
  unfold Addressed withAddress at *
  rcases h with h | h
  · simpa only [Table.rows_updateWhere, h] using h'
  · rcases h' with h' | h'
    · exact .inr (h'.trans h)
    · -- setting the address twice sets it once
      refine .inr (h'.trans ?_)
      rw [Table.rows_updateWhere, h, Table.rows_updateWhere, List.map_map]
      refine List.map_congr_left fun r _ => ?_
      simp only [Function.comp]
      split <;> simp_all

section After

variable (o : Oracle Call)

private theorem updateRecordAddress_addressed (addressID id : Int) :
    Prog.Keeps o (Addressed id addressID)
      (updateRecordAddress addressID id) := by
  refine .call (Addressed.refl id addressID) fun w => ?_
  split
  · exact .inl rfl
  · exact .inr rfl

private theorem updateRecord_addressed (env : Env) (r : Record)
    (addr : Address) :
    Prog.Keeps o (Addressed r.id addr.id) (updateRecord env r addr) := by
  exact updateRecord_keeps (Addressed.refl r.id addr.id)
    (Addressed.trans r.id addr.id) env (fun _ _ _ => .inl rfl)
    (updateRecordAddress_addressed o _ _)

private theorem applyCurrent_addressed (env : Env) (r : Record)
    (addr : Address) (ip : GoString) :
    Prog.Keeps o (Addressed r.id addr.id) (applyCurrent env r addr ip) := by
  exact applyCurrent_keeps (Addressed.refl r.id addr.id)
    (Addressed.trans r.id addr.id) env (updateRecord_addressed o env r addr)
    (fun id => (fireTasks_records o env id _ _).mono (Addressed.kept _ _)) ip

private theorem refreshRecord_placed (env : Env) (s : Sys World)
    (record : Record) :
    (refreshRecord env record).wp o s fun _ t =>
      Placed record.id (currentAddress s.state.addresses) s.state.records
        t.state.records := by
  unfold refreshRecord
  split
  · rw [Prog.wp_bind, Prog.wp_mapError]
    refine Prog.wp_mono (getCurrentAddress_spec o s) ?_
    rintro (err | addr) t ⟨ht, hread⟩
    · exact .inl (by rw [ht])
    have hcurrent := hread addr rfl
    rw [← ht] at hcurrent ⊢
    show Prog.wp _ o t _
    cases addr.ipv4 with
    | none => exact .inl rfl
    | some ip =>
        refine Prog.wp_mono (applyCurrent_addressed o env record addr ip t) ?_
        intro _ u h
        exact h.imp id fun h => ⟨addr, hcurrent, h⟩
  · exact .inl rfl

/-- Whatever follows a save, the record's row is at most given the address
that is current. -/
private theorem afterSave_placed (env : Env) (s : Sys World)
    (record : Record) :
    (afterSave env record).wp o s fun _ t =>
      Placed record.id (currentAddress s.state.addresses) s.state.records
        t.state.records := by
  unfold afterSave
  rw [Prog.wp_bind, Prog.wp_mapError]
  refine Prog.wp_mono (refreshRecord_placed o env s record) ?_
  rintro (err | record) t h
  · exact h
  have hrest : Prog.Keeps o RecordsKept (do
      issueAfterSave env record
      answer record) :=
    .bind RecordsKept.trans (issueAfterSave_records o env record) fun _ =>
      answer_records o record
  refine Prog.wp_mono (hrest t) fun _ u hkept => ?_
  have hrecords : u.state.records = t.state.records := hkept
  rw [hrecords]
  exact h

end After

/-! ## The call -/

section Call

variable {env : Env} {o : Oracle Call} {s : Sys World} {input : RecordInput}

private theorem upsertRecord_ends :
    (upsertRecord env input).wp o s fun r t =>
      (∃ id table, Stores env o s input id table ∧
        Placed id (currentAddress s.state.addresses) table t.state.records) ∨
      (∀ id table, ¬Stores env o s input id table) ∧
        t.state.records.rows = s.state.records.rows ∧
          ∃ err, r = .error err := by
  unfold upsertRecord
  rw [Prog.wp_bind, Prog.wp_ofExcept]
  cases hchecked : checkInput env input with
  | error err =>
      refine .inr ⟨?_, rfl, _, rfl⟩
      rintro id table ⟨encrypted, token, hok, -⟩
      exact nomatch hchecked.symm.trans hok
  | ok encrypted =>
      show Prog.wp _ o s _
      rw [Prog.wp_bind, Prog.wp_mapError]
      refine Prog.wp_mono (saveRecord_ends hchecked) ?_
      intro r t hends
      cases hends with
      | done id table hstores haddresses hrecords hid =>
          cases r with
          | error err =>
              exact .inl ⟨id, table, hstores, .inl (by rw [hrecords])⟩
          | ok record =>
              refine Prog.wp_mono (afterSave_placed o env t record) ?_
              intro r' u hplaced
              refine .inl ⟨id, table, hstores, ?_⟩
              rw [hid record rfl, haddresses, hrecords] at hplaced
              exact hplaced
      | none hnone hrows herr =>
          obtain ⟨err, rfl⟩ := herr
          exact .inr ⟨hnone, hrows, _, rfl⟩

/-- A request is stored under one id and one table. -/
private theorem Stores.unique {id id' : Int} {table table' : Table Record}
    (h : Stores env o s input id table)
    (h' : Stores env o s input id' table') : id = id' ∧ table = table' := by
  obtain ⟨encrypted, token, hchecked, htoken, -, hstored⟩ := h
  obtain ⟨encrypted', token', hchecked', htoken', -, hstored'⟩ := h'
  obtain rfl := Except.ok.inj (hchecked.symm.trans hchecked')
  obtain rfl := Option.some.inj (htoken.symm.trans htoken')
  exact Prod.mk.inj (Option.some.inj (hstored.symm.trans hstored'))

/-- The unique key keeps a create out while a row has its zone and name. -/
private theorem not_stores_of_taken (hcreate : input.id = 0) {r : Record}
    (hr : r ∈ s.state.records.rows) (hzone : r.zoneID = input.zoneId)
    (hname : env.collate r.name = env.collate input.name) (id : Int)
    (table : Table Record) : ¬Stores env o s input id table := by
  rintro ⟨encrypted, token, -, -, -, hstored⟩
  have hne : r.id ≠ s.state.records.next :=
    Int.ne_of_lt (s.state.records.fresh r hr)
  have htaken : (input.params token).taken env.collate s.state.records.next
      s.state.records = true := by
    unfold RecordParams.taken
    refine List.any_eq_true.mpr ⟨r, hr, ?_⟩
    simp [hne, hzone, hname, RecordInput.params]
  simp [stored, hcreate, htaken] at hstored

/-- The row a stored create leaves has the zone and the name of the request,
also once its address is set. -/
private theorem exists_created (hcreate : input.id = 0) {id : Int}
    {table t : Table Record} {current : Option Address}
    (hstores : Stores env o s input id table)
    (hplaced : Placed id current table t) :
    ∃ r ∈ t.rows, r.zoneID = input.zoneId ∧ r.name = input.name := by
  obtain ⟨encrypted, token, -, -, -, hstored⟩ := hstores
  have hmem : ∃ r ∈ table.rows,
      r.zoneID = input.zoneId ∧ r.name = input.name := by
    unfold stored at hstored
    simp only [hcreate, if_true] at hstored
    split at hstored
    · cases hstored
    · split at hstored
      · cases hstored
      · obtain ⟨-, rfl⟩ := Prod.mk.inj (Option.some.inj hstored)
        exact ⟨_, List.mem_append_right _ (List.mem_singleton_self _), rfl, rfl⟩
  obtain ⟨r, hr, hzone, hname⟩ := hmem
  rcases hplaced with hrows | ⟨a, -, hrows⟩
  · exact ⟨r, hrows ▸ hr, hzone, hname⟩
  · rw [hrows]
    refine ⟨_, List.mem_map_of_mem hr, ?_⟩
    split
    · exact ⟨hzone, hname⟩
    · exact ⟨hzone, hname⟩

end Call

/-- **What a save leaves.**  A call whose storing statement does not take
effect returns an error and leaves the rows as they were.  Once it has taken
effect, the table is the one asked for, at most with the current address on the
stored row, whichever later step fails; a create that got that far is refused
when it is repeated, and the rows stay. -/
theorem upsertRecord_rows (env : Env) (o : Oracle Call) (s : Sys World)
    (input : RecordInput) :
    (upsertRecord env input).wp o s fun r t =>
      ((∀ id table, ¬Stores env o s input id table) →
        t.state.records.rows = s.state.records.rows ∧
          ∃ err, r = .error err) ∧
      ∀ id table, Stores env o s input id table →
        Placed id (currentAddress s.state.addresses) table t.state.records ∧
        (input.id = 0 → ∀ (again : Env) (o' : Oracle Call) (clock : Nat),
          again.collate = env.collate →
            (upsertRecord again input).wp o' ⟨t.state, clock⟩ fun r' t' =>
              t'.state.records.rows = t.state.records.rows ∧
                ∃ err, r' = .error err) := by
  refine Prog.wp_mono upsertRecord_ends ?_
  rintro r t (⟨id, table, hstores, hplaced⟩ | ⟨hnot, hrows, herr⟩)
  · refine ⟨fun hnot => absurd hstores (hnot id table), ?_⟩
    intro id' table' hstores'
    obtain ⟨rfl, rfl⟩ := hstores.unique hstores'
    refine ⟨hplaced, fun hcreate again o' clock hcollate => ?_⟩
    obtain ⟨row, hrow, hzone, hname⟩ :=
      exists_created hcreate hstores hplaced
    have hrefused : ∀ id table,
        ¬Stores again o' ⟨t.state, clock⟩ input id table :=
      not_stores_of_taken hcreate hrow hzone (by rw [hname])
    refine Prog.wp_mono upsertRecord_ends ?_
    rintro r' t' (⟨id, table, hstores, -⟩ | ⟨-, hrows, herr⟩)
    · exact absurd hstores (hrefused id table)
    · exact ⟨hrows, herr⟩
  · exact ⟨fun _ => ⟨hrows, herr⟩,
      fun id table hstores => absurd hstores (hnot id table)⟩

/-! ## A create that fails after it has been stored -/

/-- A DDNS record for a new name. -/
private def home : RecordInput :=
  ⟨0, "token", 1, "example.org", "home", 300, 1, false, []⟩

/-- A freshly migrated database: no public address is stored. -/
private def fresh : Sys World := ⟨World.init fun _ _ => none, 0⟩

/-- The first call stores the row and fails because there is no stored address;
the same call again, with an address stored, is refused as a duplicate. -/
theorem failed_create_blocks_its_repetition :
    (∃ err, (upsertRecord Env.sample home .quiet fresh).1 = .error err) ∧
      fresh.state.records.rows = [] ∧
      (upsertRecord Env.sample home .quiet fresh).2.state.records.rows =
        [storedRow (home.params "token") 1 none] ∧
      ∃ err, (upsertRecord Env.sample home .quiet ⟨{
        (upsertRecord Env.sample home .quiet fresh).2.state with
          addresses := ⟨[⟨1, some "203.0.113.1", none, true⟩], 2, by decide,
            by decide⟩ }, 0⟩).1 = .error err := by
  refine ⟨⟨_, rfl⟩, rfl, by decide +kernel, ⟨_, rfl⟩⟩

end Hdns.Ports.UpsertFailure

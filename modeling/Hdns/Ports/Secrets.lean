import Hdns.Ports.IssuanceSteps
import Hdns.Ports.TaskEdits
import Hdns.Verified.Machine

/-!
# Write-only secrets

The Hetzner token of a record and the HTTP headers of a task are supplied by a
client, encrypted, and never sent back.  An update that supplies none keeps the
stored one.  What counts as none differs: a creation and `EncryptHeaders` trim
the value, an update compares it with the empty text.

## Main results

* `upsertRecord_secrets`, `upsertTask_secrets` — a successful call keeps every
  secret, or replaces that of the row it has saved.
* `secrets_survive_edits_iff` — after every call of a run the stored secrets are
  the last ones supplied that were not blank if and only if no update supplies
  a blank text that is not empty.
-/

namespace Hdns.Ports.Secrets

open Hdns.Verified
open Hdns.Verified.GoString
open Hdns.Ports.Schema
open Hdns.Ports.UpdateAddress
open Hdns.Ports.Hetzner
open Hdns.Ports.Service
open Hdns.Ports.Records
open Hdns.Ports.Operations
open Hdns.Ports.IssuanceSteps
open Hdns.Ports.TaskEdits

/-! ## Secret columns -/

/-- The stored tokens, by the id of the record. -/
def tokens (w : World) : Int → Option GoString :=
  w.records.column Record.token

/-- The stored headers, by the id of the task. -/
def headers (w : World) : Int → Option NullString :=
  w.tasks.column Task.headers

/-- **What a save does to a column of secrets.**  The request is for the row
`inputID`, 0 for a new one, and supplies `value`; `stored` is what `value` may
be encrypted to; `id` is the row that has been saved. -/
inductive SecretMove {β : Type} (inputID : Int) (value : GoString)
    (stored : β → Prop) (old new : Int → Option β) (id : Int) : Prop where
  | keeps (hid : id = inputID) (hupdate : inputID ≠ 0) (hempty : value = [])
      (hsame : new = old) : SecretMove inputID value stored old new id
  | sets (b : β) (hstored : stored b)
      (hupdate : inputID ≠ 0 →
        id = inputID ∧ value ≠ [] ∧ ∃ b, old inputID = some b)
      (hnew : new = Function.update old id (some b)) :
      SecretMove inputID value stored old new id

/-- The last value supplied that was not blank, after one more save. -/
def lastSupplied (inputID : Int) (value : GoString)
    (last : Option GoString) : Option GoString :=
  if value.trimSpace ≠ [] then some value
  else if inputID = 0 then none
  else last

@[simp] theorem trimSpace_nil : GoString.trimSpace [] = [] := by decide

section SecretMove

variable {β : Type} {inputID id : Int} {value : GoString} {stored : β → Prop}
  {old new : Int → Option β} {last : Int → Option GoString}
  {Shows : Option GoString → β → Prop}

/-- The saved row shows the last value supplied, when a blank text that an
update supplies stores what the row has shown before. -/
theorem SecretMove.shows (h : SecretMove inputID value stored old new id)
    (hold : ∀ i b, old i = some b → Shows (last i) b)
    (hgiven : ∀ b, stored b → value.trimSpace ≠ [] → Shows (some value) b)
    (hcreated : ∀ b, stored b → inputID = 0 → value.trimSpace = [] →
      Shows none b)
    (hblank : inputID ≠ 0 → value ≠ [] → value.trimSpace = [] →
      (∃ b, old inputID = some b) → ∀ b, stored b → Shows (last inputID) b) :
    ∀ i b, new i = some b → Shows (Function.update last id
      (lastSupplied inputID value (last id)) i) b := by
  intro i b hi
  cases h with
  | keeps hid hupdate hempty hsame =>
      have hlast : lastSupplied inputID value (last id) = last id := by
        simp [lastSupplied, hempty, hupdate]
      rw [hlast, Function.update_eq_self]
      exact hold i b (hsame ▸ hi)
  | sets b' hstored hupdate hnew =>
      by_cases hid : i = id
      · subst hid
        rw [hnew, Function.update_self] at hi
        obtain rfl := Option.some.inj hi
        rw [Function.update_self, lastSupplied]
        by_cases hvalue : value.trimSpace = []
        · rw [if_neg (not_not.mpr hvalue)]
          by_cases hzero : inputID = 0
          · rw [if_pos hzero]
            exact hcreated b' hstored hzero hvalue
          · obtain ⟨rfl, hne, hfound⟩ := hupdate hzero
            rw [if_neg hzero]
            exact hblank hzero hne hvalue hfound b' hstored
        · rw [if_pos hvalue]
          exact hgiven b' hstored hvalue
      · rw [Function.update_of_ne hid]
        refine hold i b ?_
        rw [hnew, Function.update_of_ne hid] at hi
        exact hi

/-- What a blank text that an update supplies has been stored as shows the
value supplied before. -/
theorem SecretMove.blank_shows (h : SecretMove inputID value stored old new id)
    (hupdate : inputID ≠ 0) (hne : value ≠ []) (hblank : value.trimSpace = [])
    (hshows : ∀ i b, new i = some b → Shows (Function.update last id
      (lastSupplied inputID value (last id)) i) b) :
    ∃ b, stored b ∧ Shows (last inputID) b := by
  cases h with
  | keeps hid hupdate hempty hsame => exact absurd hempty hne
  | sets b hstored hold hnew =>
      obtain ⟨rfl, _⟩ := hold hupdate
      refine ⟨b, hstored, ?_⟩
      have hb := hshows id b (by rw [hnew, Function.update_self])
      rw [Function.update_self] at hb
      simpa [lastSupplied, hblank, hupdate] using hb

/-- A save that keeps what the row has, or stores what has been supplied. -/
theorem SecretMove.of_saved {b : β}
    (hb : if inputID ≠ 0 ∧ value = [] then old inputID = some b else stored b)
    (hnew : new = Function.update old id (some b))
    (hupdate : inputID ≠ 0 → id = inputID ∧ ∃ b, old inputID = some b) :
    SecretMove inputID value stored old new id := by
  by_cases hkeep : inputID ≠ 0 ∧ value = []
  · rw [if_pos hkeep] at hb
    obtain ⟨hid, _⟩ := hupdate hkeep.1
    refine .keeps hid hkeep.1 hkeep.2 ?_
    rw [hnew, hid, ← hb, Function.update_eq_self]
  · rw [if_neg hkeep] at hb
    refine .sets b hb (fun hne => ?_) hnew
    obtain ⟨hid, hold⟩ := hupdate hne
    exact ⟨hid, fun hempty => hkeep ⟨hne, hempty⟩, hold⟩

end SecretMove

/-! ## The tokens -/

section Tokens

variable {o : Oracle Call} {s : Sys World} {env : Env} {input : RecordInput}

/-- The statement of the switch of `UpsertRecord`: the row it reports, if it
can be read back, has the token. -/
theorem storeRow_tokens (token : GoString) :
    (storeRow env input token).wpOk o s fun id t =>
      (t.state.records.find? id).isSome = true →
        tokens t.state = Function.update (tokens s.state) id (some token) ∧
          (input.id ≠ 0 → id = input.id ∧
            ∃ b, tokens s.state input.id = some b) := by
  unfold storeRow
  split
  · next hzero =>
    refine Prog.wpOk_mapError (Prog.wpOk_call fun id hid => ?_)
    split at hid
    · cases hid
    · split at hid
      · cases hid
      · next hfits hfree =>
        obtain rfl := Except.ok.inj hid
        intro _
        rw [if_neg hfits, if_neg hfree]
        exact ⟨Table.column_insert fun _ => rfl,
          fun h => absurd hzero h⟩
  · refine Prog.wpOk_bind (Prog.wpOk_mapError (Prog.wpOk_call
      fun _ hdone => Prog.wpOk_pure ?_))
    split at hdone
    · next hnone =>
      rw [if_pos hnone]
      intro hfound
      rw [Option.isNone_iff_eq_none.mp hnone] at hfound
      cases hfound
    · next hsome =>
      rw [if_neg hsome]
      split at hdone
      · cases hdone
      · next hfits =>
        rw [if_neg hfits]
        split at hdone
        · cases hdone
        · next hfree =>
          rw [if_neg hfree]
          intro _
          have hfound : (s.state.records.find? input.id).isSome = true := by
            simpa [Option.isSome_iff_ne_none] using hsome
          refine ⟨Table.column_updateWhere (by intro _; rfl)
            (by intro _; rfl) hfound,
            fun _ => ⟨rfl, ?_⟩⟩
          obtain ⟨r, hr⟩ := Option.isSome_iff_exists.mp hfound
          exact ⟨r.token, Table.column_eq_some hr⟩

/-- The token `UpsertRecord` stores. -/
theorem storedToken_spec (encrypted : GoString) :
    (storedToken input encrypted).wpOk o s fun token t =>
      t.state = s.state ∧
        if input.id ≠ 0 ∧ input.token = [] then
          tokens s.state input.id = some token
        else token = encrypted := by
  unfold storedToken
  split
  · next hkeep =>
    refine Prog.wpOk_bind (Prog.wpOk_mapError (Prog.wpOk_query
      fun existing hread => Prog.wpOk_pure ⟨rfl, ?_⟩))
    cases hfind : s.state.records.find? input.id with
    | none =>
        rw [hfind] at hread
        cases hread
    | some r =>
        rw [hfind] at hread
        obtain rfl := Except.ok.inj hread
        exact Table.column_eq_some hfind
  · exact Prog.wpOk_pure ⟨rfl, rfl⟩

/-- The callback of `UpsertRecord`. -/
theorem saveRecord_tokens (encrypted : GoString) :
    (saveRecord env input encrypted).wpOk o s fun record t =>
      SecretMove input.id input.token (· = encrypted) (tokens s.state)
        (tokens t.state) record.id := by
  refine Prog.wpOk_bind (Prog.wpOk_bind (Prog.wpOk_mono
    (storedToken_spec encrypted) fun token t ht => Prog.wpOk_mono
      (storeRow_tokens token) fun id u hu => ?_))
  obtain ⟨ht, htoken⟩ := ht
  refine Prog.wpOk_mapError (Prog.wpOk_mono (getRecord_ok o u id)
    fun record v hv => ?_)
  obtain ⟨hv, hfound⟩ := hv
  obtain rfl : record.id = id := Table.find?_key hfound
  obtain ⟨hnew, hupdate⟩ := hu (Option.isSome_iff_exists.mpr ⟨record, hfound⟩)
  rw [ht] at hnew hupdate
  rw [hv]
  exact .of_saved htoken hnew hupdate

theorem tokens_of_aside {w w' : World} (h : Aside w w') :
    tokens w' = tokens w := by
  funext id
  have htoken : ∀ r : Option Record,
      (r.map savedColumns).map Record.token = r.map Record.token := by
    intro r
    rw [Option.map_map]
    rfl
  rw [tokens, tokens, Table.column, Table.column, ← htoken, h.records id,
    htoken]

theorem updateRecord_id (r : Record) (addr : Address) :
    (updateRecord env r addr).wpOk o s fun r' _ => r'.id = r.id :=
  Prog.wpOk_bind_any fun _ _ => Prog.wpOk_bind_any fun _ _ =>
    Prog.wpOk_bind_any fun _ _ => Prog.wpOk_pure rfl

/-- The record a refresh returns is the one it was given. -/
theorem refreshRecord_id (r : Record) :
    (refreshRecord env r).wpOk o s fun r' _ => r'.id = r.id := by
  unfold refreshRecord
  split
  · refine Prog.wpOk_bind_any fun current t => ?_
    cases current.ipv4 with
    | none => exact Prog.wpOk_throw _
    | some ip =>
        refine Prog.wpOk_bind_any fun found u => ?_
        split
        · exact Prog.wpOk_pure rfl
        · exact Prog.wpOk_bind (Prog.wpOk_mono (updateRecord_id r current)
            fun _ _ hid => Prog.wpOk_bind_any fun _ _ => Prog.wpOk_pure hid)
  · exact Prog.wpOk_pure rfl

/-- The answer is about the record it is made for. -/
theorem answer_id (r : Record) :
    (answer r).wpOk o s fun proto _ => proto.id = r.id := by
  unfold answer
  split
  · exact Prog.wpOk_pure rfl
  · exact Prog.wpOk_bind_any fun _ _ => Prog.wpOk_pure rfl

end Tokens

/-! ## The headers -/

/-- The headers of the tasks stay. -/
def HeadersKept (w w' : World) : Prop := headers w' = headers w

theorem HeadersKept.refl (w : World) : HeadersKept w w := rfl

theorem headersKept_of_tasks {w w' : World} (h : w'.tasks = w.tasks) :
    HeadersKept w w' := by
  rw [HeadersKept, headers, headers, h]

/-- Whatever a pass or a task run does, it leaves the headers alone. -/
theorem headersKept_tracks : Tracks HeadersKept where
  refl := HeadersKept.refl
  trans := fun _ _ _ h h' => Eq.trans h' h
  calm := fun _ _ h => headersKept_of_tasks h.tasks
  saved := fun _ _ _ _ _ h => headersKept_of_tasks (by rw [h.frame])
  ran := fun _ _ _ => rfl
  result := fun _ _ _ _ _ => Table.column_updateWhere_of_kept
    (by intro _; rfl) fun _ => rfl

section Headers

variable {o : Oracle Call} {s : Sys World} {env : Env}

theorem refreshRecord_headers (r : Record) :
    Prog.Keeps o HeadersKept (refreshRecord env r) := by
  have htracks := headersKept_tracks
  refine .ite (fun _ => ?_) fun _ => .pure htracks.refl _
  refine .bind htracks.trans (.mapError (.query htracks.refl) _)
    fun current => ?_
  cases hip : current.ipv4 with
  | none => exact .throw htracks.refl _
  | some ip => exact applyCurrent_tracks htracks env hip fun _ _ _ => rfl

theorem checkInput_ok {input : RecordInput} {encrypted : GoString}
    (h : checkInput env input = .ok encrypted) :
    (input.id = 0 → input.token.trimSpace ≠ []) ∧
      env.encrypt env.encryptionKey input.token = .ok encrypted := by
  unfold checkInput at h
  split at h
  · cases h
  · next htoken =>
    refine ⟨fun hzero hblank => htoken ⟨hblank, hzero⟩, ?_⟩
    split at h
    · cases h
    · split at h
      · cases h
      · split at h
        · cases h
        · split at h
          · cases h
          · cases henc : env.encrypt env.encryptionKey input.token with
            | error err =>
                rw [henc] at h
                cases h
            | ok e =>
                rw [henc] at h
                exact congrArg Except.ok (Except.ok.inj h)

/-- **A successful `UpsertRecord`** keeps every token, or replaces that of the
record it has saved; a new record is given a token that is not blank. -/
theorem upsertRecord_secrets (input : RecordInput) :
    (upsertRecord env input).wpOk o s fun proto t =>
      SecretMove input.id input.token
          (fun e => env.encrypt env.encryptionKey input.token = .ok e)
          (tokens s.state) (tokens t.state) proto.id ∧
        (input.id = 0 → input.token.trimSpace ≠ []) ∧
        headers t.state = headers s.state := by
  refine Prog.wpOk_bind (Prog.wpOk_ofExcept fun encrypted hchecked => ?_)
  obtain ⟨hcreate, hencrypted⟩ := checkInput_ok hchecked
  refine Prog.wpOk_bind (Prog.wpOk_mapError (Prog.wpOk_mono (Prog.wpOk_and
    (saveRecord_tokens encrypted)
    (Prog.wpOk_of_keeps (saveRecord_calm o env input encrypted))) ?_))
  rintro record t ⟨hmove, hcalm⟩
  refine Prog.wpOk_bind (Prog.wpOk_mapError (Prog.wpOk_mono (Prog.wpOk_and
    (refreshRecord_id record) (Prog.wpOk_and
      (Prog.wpOk_of_keeps (refreshRecord_aside env record))
      (Prog.wpOk_of_keeps (refreshRecord_headers record)))) ?_))
  rintro record' u ⟨hid, haside, hheaders⟩
  refine Prog.wpOk_bind (Prog.wpOk_mono (Prog.wpOk_and
    (Prog.wpOk_of_keeps (issueAfterSave_records o env record'))
    (Prog.wpOk_of_keeps (issueAfterSave_calm o env record'))) ?_)
  rintro _ v ⟨hrecords, hcalm'⟩
  refine Prog.wpOk_mono (Prog.wpOk_and (answer_id record') (Prog.wpOk_and
    (Prog.wpOk_of_keeps (answer_records o record'))
    (Prog.wpOk_of_keeps (answer_calm o record')))) ?_
  rintro proto x ⟨hproto, hrecords', hcalm''⟩
  have htokens : tokens x.state = tokens t.state := by
    have hsame : x.state.records = u.state.records :=
      Eq.trans hrecords' hrecords
    rw [← tokens_of_aside haside, tokens, tokens, hsame]
  have hkept : headers x.state = headers s.state := by
    have h := headersKept_of_tasks hcalm.tasks
    have h' := headersKept_of_tasks (hcalm''.tasks.trans hcalm'.tasks)
    exact Eq.trans h' (Eq.trans hheaders h)
  refine ⟨?_, hcreate, hkept⟩
  rw [htokens, hproto, hid]
  cases hmove with
  | keeps hid hupdate hempty hsame => exact .keeps hid hupdate hempty hsame
  | sets b hstored hupdate hnew =>
      exact .sets b (hstored ▸ hencrypted) hupdate hnew

/-! ### `UpsertTask` -/

variable {lib : Library} {input : TaskInput}

theorem getTask_ok (id : Int) :
    (getTask id).wpOk o s fun task t =>
      t.state = s.state ∧ s.state.tasks.find? id = some task := by
  refine Prog.wpOk_query fun task hread => ⟨rfl, ?_⟩
  cases hfind : s.state.tasks.find? id with
  | none =>
      rw [hfind] at hread
      cases hread
  | some t =>
      rw [hfind] at hread
      exact congrArg some (Except.ok.inj hread)

/-- The headers `UpsertTask` stores. -/
theorem storedHeaders_spec :
    (storedHeaders env lib input).wpOk o s fun h t =>
      t.state = s.state ∧
        if input.id ≠ 0 ∧ input.headers = [] then
          headers s.state input.id = some h
        else encryptHeaders env lib input.headers = .ok h := by
  have hnew : ∀ u : Sys World, (newHeaders env lib input).wpOk o u fun h t =>
      t.state = u.state ∧ encryptHeaders env lib input.headers = .ok h := by
    intro u
    refine Prog.wpOk_ofExcept fun h hencrypted => ⟨rfl, ?_⟩
    cases henc : encryptHeaders env lib input.headers with
    | error err =>
        rw [henc] at hencrypted
        cases hencrypted
    | ok h' =>
        rw [henc] at hencrypted
        exact congrArg Except.ok (Except.ok.inj hencrypted)
  unfold storedHeaders
  split
  · next hzero =>
    refine Prog.wpOk_mono (hnew s) fun h t ht => ⟨ht.1, ?_⟩
    rw [if_neg fun hkeep => hkeep.1 hzero]
    exact ht.2
  · next hupdate =>
    refine Prog.wpOk_bind (Prog.wpOk_mapError (Prog.wpOk_mono
      (getTask_ok input.id) fun task t ht => ?_))
    obtain ⟨ht, hfound⟩ := ht
    split
    · next hgiven =>
      refine Prog.wpOk_mono (hnew t) fun h u hu => ⟨hu.1.trans ht, ?_⟩
      rw [if_neg fun hkeep => hgiven hkeep.2]
      exact hu.2
    · next hempty =>
      refine Prog.wpOk_pure ⟨ht, ?_⟩
      rw [if_pos ⟨hupdate, not_not.mp hempty⟩]
      exact Table.column_eq_some hfound

/-- The statement of the switch of `UpsertTask`: the row it reports, if it can
be read back, has the headers. -/
theorem storeTaskRow_headers (h : NullString) :
    (storeTaskRow lib input h).wpOk o s fun id t =>
      t.state.records = s.state.records ∧
        ((t.state.tasks.find? id).isSome = true →
          headers t.state = Function.update (headers s.state) id (some h) ∧
            (input.id ≠ 0 → id = input.id ∧
              ∃ b, headers s.state input.id = some b)) := by
  unfold storeTaskRow
  split
  · next hzero =>
    refine Prog.wpOk_mapError (Prog.wpOk_call fun id hid => ?_)
    split at hid
    · cases hid
    · split at hid
      · cases hid
      · next hfits hparent =>
        obtain rfl := Except.ok.inj hid
        rw [if_neg hfits, if_neg hparent]
        exact ⟨rfl, fun _ => ⟨Table.column_insert fun _ => rfl,
          fun h => absurd hzero h⟩⟩
  · refine Prog.wpOk_bind (Prog.wpOk_mapError (Prog.wpOk_call
      fun _ hdone => Prog.wpOk_pure ?_))
    split at hdone
    · next hnone =>
      rw [if_pos hnone]
      refine ⟨rfl, fun hfound => ?_⟩
      rw [Option.isNone_iff_eq_none.mp hnone] at hfound
      cases hfound
    · next hsome =>
      rw [if_neg hsome]
      split at hdone
      · cases hdone
      · next hfits =>
        rw [if_neg hfits]
        split at hdone
        · cases hdone
        · next hparent =>
          rw [if_neg hparent]
          have hfound : (s.state.tasks.find? input.id).isSome = true := by
            simpa [Option.isSome_iff_ne_none] using hsome
          refine ⟨rfl, fun _ => ⟨Table.column_updateWhere (by intro _; rfl)
            (by intro _; rfl) hfound, fun _ => ⟨rfl, ?_⟩⟩⟩
          obtain ⟨r, hr⟩ := Option.isSome_iff_exists.mp hfound
          exact ⟨r.headers, Table.column_eq_some hr⟩

/-- **A successful `UpsertTask`** keeps all headers, or replaces those of the
task it has saved. -/
theorem upsertTask_secrets :
    (upsertTask env lib input).wpOk o s fun proto t =>
      SecretMove input.id input.headers
          (fun h => encryptHeaders env lib input.headers = .ok h)
          (headers s.state) (headers t.state) proto.id ∧
        tokens t.state = tokens s.state := by
  refine Prog.wpOk_bind (Prog.wpOk_ofExcept fun _ _ => ?_)
  refine Prog.wpOk_bind (Prog.wpOk_mapError (Prog.wpOk_bind (Prog.wpOk_mono
    storedHeaders_spec fun h t ht => Prog.wpOk_bind (Prog.wpOk_mono
      (storeTaskRow_headers h) fun id u hu => Prog.wpOk_mono (getTask_ok id)
        fun task v hv => Prog.wpOk_pure ?_))))
  obtain ⟨ht, hstored⟩ := ht
  obtain ⟨hrecords, hu⟩ := hu
  obtain ⟨hv, hfound⟩ := hv
  obtain rfl : task.id = id := Table.find?_key hfound
  obtain ⟨hnew, hupdate⟩ := hu (Option.isSome_iff_exists.mpr ⟨task, hfound⟩)
  rw [ht] at hnew hupdate hrecords
  rw [hv]
  have hmove : SecretMove input.id input.headers
      (fun h => encryptHeaders env lib input.headers = .ok h) (headers s.state)
      (headers u.state) task.id :=
    .of_saved hstored hnew hupdate
  exact ⟨hmove, by rw [tokens, tokens, hrecords]⟩

end Headers

/-! ## Runs of edits -/

/-- The database, and for each record and each task the last secret supplied
for it that was not blank.  No call reads the latter. -/
structure State where
  world : World
  tokens : Int → Option GoString
  headers : Int → Option GoString

/-- A fresh database. -/
def fresh (zones : Zones) : State :=
  ⟨World.init zones, fun _ => none, fun _ => none⟩

/-- A label: a call of one of the two handlers, or another call. -/
inductive Edit where
  | record (env : Env) (o : Oracle Call) (input : RecordInput)
  | task (env : Env) (o : Oracle Call) (input : TaskInput)
  | others (w : World)

/-- The machine of successful edits. -/
def edits (lib : Library) : Machine State Edit where
  step s
    | .record env o input =>
        match upsertRecord env input o ⟨s.world, 0⟩ with
        | (.ok proto, t) => some { s with
            world := t.state
            tokens := Function.update s.tokens proto.id
              (lastSupplied input.id input.token (s.tokens proto.id)) }
        | (.error _, _) => none
    | .task env o input =>
        match upsertTask env lib input o ⟨s.world, 0⟩ with
        | (.ok proto, t) => some { s with
            world := t.state
            headers := Function.update s.headers proto.id
              (lastSupplied input.id input.headers (s.headers proto.id)) }
        | (.error _, _) => none
    | .others w => some { s with world := w }

/-- The calls of a deployment share the key and the cipher. -/
structure Shares (base env : Env) : Prop where
  key : env.encryptionKey = base.encryptionKey
  decrypt : env.decrypt = base.decrypt
  lawful : LawfulCipher env

/-- Calls outside the model store no secret; they may delete rows. -/
def Proper (base : Env) (s : State) : Edit → Prop
  | .record env _ _ => Shares base env
  | .task env _ _ => Shares base env
  | .others w =>
      (∀ id e, tokens w id = some e → tokens s.world id = some e) ∧
        ∀ id h, headers w id = some h → headers s.world id = some h

/-- A stored token decrypts to the last one supplied. -/
def ShowsToken (base : Env) (last : Option GoString) (e : GoString) : Prop :=
  ∃ v, last = some v ∧ base.decrypt base.encryptionKey e = .ok v

/-- Stored headers decode to the last ones supplied. -/
def ShowsHeaders (base : Env) (lib : Library) (last : Option GoString)
    (h : NullString) : Prop :=
  decodeHeaders base lib h = last.elim (.ok Headers.empty) (headersOf lib)

/-- Every stored secret is the last one a client has supplied. -/
structure Survive (base : Env) (lib : Library) (s : State) : Prop where
  tokens : ∀ id e, tokens s.world id = some e →
    ShowsToken base (s.tokens id) e
  headers : ∀ id h, headers s.world id = some h →
    ShowsHeaders base lib (s.headers id) h

/-- **The condition**: no update supplies a token that is blank and not empty,
nor such headers for a task that has any. -/
def Supplied (base : Env) (lib : Library) (s : State) : Edit → Prop
  | .record _ _ input =>
      input.id ≠ 0 → input.token ≠ [] → input.token.trimSpace ≠ []
  | .task _ _ input =>
      input.id ≠ 0 → input.headers ≠ [] → input.headers.trimSpace = [] →
        ∀ h, headers s.world input.id = some h →
          decodeHeaders base lib h = .ok Headers.empty
  | .others _ => True

section Runs

variable {base : Env} {lib : Library} {s s' : State} {e : Edit}

theorem decodeHeaders_shares {env : Env} (h : Shares base env)
    (stored : NullString) :
    decodeHeaders env lib stored = decodeHeaders base lib stored := by
  rw [decodeHeaders, decodeHeaders, h.key, h.decrypt]

/-- **What a successful save of a record does.** -/
theorem record_step {env : Env} {o : Oracle Call} {input : RecordInput}
    (h : (edits lib).step s (.record env o input) = some s') :
    ∃ id, SecretMove input.id input.token
        (fun e => env.encrypt env.encryptionKey input.token = .ok e)
        (tokens s.world) (tokens s'.world) id ∧
      (input.id = 0 → input.token.trimSpace ≠ []) ∧
      headers s'.world = headers s.world ∧ s'.headers = s.headers ∧
      s'.tokens = Function.update s.tokens id
        (lastSupplied input.id input.token (s.tokens id)) := by
  simp only [edits] at h
  split at h
  · next proto t hrun =>
    obtain rfl := Option.some.inj h
    obtain ⟨hmove, hcreate, hheaders⟩ := upsertRecord_secrets input proto t hrun
    exact ⟨proto.id, hmove, hcreate, hheaders, rfl, rfl⟩
  · cases h

/-- **What a successful save of a task does.** -/
theorem task_step {env : Env} {o : Oracle Call} {input : TaskInput}
    (h : (edits lib).step s (.task env o input) = some s') :
    ∃ id, SecretMove input.id input.headers
        (fun h => encryptHeaders env lib input.headers = .ok h)
        (headers s.world) (headers s'.world) id ∧
      tokens s'.world = tokens s.world ∧ s'.tokens = s.tokens ∧
      s'.headers = Function.update s.headers id
        (lastSupplied input.id input.headers (s.headers id)) := by
  simp only [edits] at h
  split at h
  · next proto t hrun =>
    obtain rfl := Option.some.inj h
    obtain ⟨hmove, htokens⟩ := upsertTask_secrets proto t hrun
    exact ⟨proto.id, hmove, htokens, rfl, rfl⟩
  · cases h

/-- The tokens remembered are those that were not blank. -/
def NonBlank (s : State) : Prop :=
  ∀ id v, s.tokens id = some v → v.trimSpace ≠ []

theorem nonBlank_step (s : State) (e : Edit) (s' : State) (h : NonBlank s)
    (hstep : (edits lib).step s e = some s') : NonBlank s' := by
  cases e with
  | record env o input =>
      obtain ⟨id, _, hcreate, _, _, hlast⟩ := record_step hstep
      intro i v hv
      rw [hlast] at hv
      by_cases hi : i = id
      · subst hi
        rw [Function.update_self, lastSupplied] at hv
        split at hv
        · next hvalue => exact Option.some.inj hv ▸ hvalue
        · split at hv
          · cases hv
          · exact h i v hv
      · rw [Function.update_of_ne hi] at hv
        exact h i v hv
  | task env o input =>
      obtain ⟨id, _, _, hlast, _⟩ := task_step hstep
      rw [NonBlank, hlast]
      exact h
  | others w =>
      obtain rfl := Option.some.inj hstep
      exact h

/-- **Step lemma.** -/
theorem survive_step (s : State) (e : Edit) (s' : State)
    (h : Survive base lib s) (hcond : Proper base s e ∧ Supplied base lib s e)
    (hstep : (edits lib).step s e = some s') : Survive base lib s' := by
  obtain ⟨hproper, hsupplied⟩ := hcond
  cases e with
  | record env o input =>
      obtain ⟨id, hmove, hcreate, hheaders, hlast, htokens⟩ := record_step hstep
      refine ⟨?_, by rw [hheaders, hlast]; exact h.headers⟩
      rw [htokens]
      refine hmove.shows h.tokens (fun b hb _ => ⟨_, rfl, ?_⟩) ?_ ?_
      · have hplain := hproper.lawful.undoes _ _ hb
        rwa [hproper.key, hproper.decrypt] at hplain
      · exact fun b _ hzero hblank => absurd hblank (hcreate hzero)
      · exact fun hne hgiven hblank => absurd hblank (hsupplied hne hgiven)
  | task env o input =>
      obtain ⟨id, hmove, htokens, hlast, hheaders⟩ := task_step hstep
      refine ⟨by rw [htokens, hlast]; exact h.tokens, ?_⟩
      rw [hheaders]
      have hdecoded : ∀ b, encryptHeaders env lib input.headers = .ok b →
          decodeHeaders base lib b = headersOf lib input.headers :=
        fun b hb => (decodeHeaders_shares hproper b).symm.trans
          (decodeHeaders_encryptHeaders hproper.lawful hb)
      refine hmove.shows h.headers (fun b hb _ => hdecoded b hb) ?_ ?_
      · intro b hb _ hblank
        rw [ShowsHeaders, hdecoded b hb, headersOf, if_pos hblank]
        rfl
      · rintro hne hgiven hblank ⟨old, hold⟩ b hb
        have hempty := hsupplied hne hgiven hblank old hold
        rw [ShowsHeaders, hdecoded b hb, headersOf, if_pos hblank]
        exact hempty.symm.trans (h.headers input.id old hold)
  | others w =>
      obtain rfl := Option.some.inj hstep
      exact ⟨fun id e he => h.tokens id e (hproper.1 id e he),
        fun id h' hh => h.headers id h' (hproper.2 id h' hh)⟩

/-- **Step lemma, the other way.** -/
theorem supplied_of_survive (s : State) (e : Edit) (s' : State)
    (h : Survive base lib s) (hnonblank : NonBlank s) (hproper : Proper base s e)
    (hstep : (edits lib).step s e = some s') (h' : Survive base lib s') :
    Supplied base lib s e := by
  cases e with
  | record env o input =>
      obtain ⟨id, hmove, _, _, _, htokens⟩ := record_step hstep
      intro hne hgiven hblank
      have hshows := h'.tokens
      rw [htokens] at hshows
      obtain ⟨b, hb, v, hv, hplain⟩ :=
        hmove.blank_shows hne hgiven hblank hshows
      have hsame := hproper.lawful.undoes _ _ hb
      rw [hproper.key, hproper.decrypt, hplain] at hsame
      obtain rfl := Except.ok.inj hsame
      exact hnonblank _ _ hv hblank
  | task env o input =>
      obtain ⟨id, hmove, _, _, hheaders⟩ := task_step hstep
      intro hne hgiven hblank old hold
      have hshows := h'.headers
      rw [hheaders] at hshows
      obtain ⟨b, hb, hlast⟩ := hmove.blank_shows hne hgiven hblank hshows
      have hnone : b = none := by
        rw [encryptHeaders_blank hblank] at hb
        exact (Except.ok.inj hb).symm
      rw [hnone, ShowsHeaders, decodeHeaders_none] at hlast
      exact (h.headers input.id old hold).trans hlast.symm
  | others w => trivial

theorem survive_fresh (zones : Zones) : Survive base lib (fresh zones) where
  tokens := by
    intro id e he
    cases he
  headers := by
    intro id h hh
    cases hh

end Runs

/-- **Write-only secrets survive edits.**  In a run of successful calls from a
fresh database, the stored secrets are after every call the last ones supplied
that were not blank, if and only if no update supplies a blank token that is
not empty, nor such headers for a task that has any. -/
theorem secrets_survive_edits_iff (base : Env) (lib : Library) (zones : Zones)
    (es : List Edit) (t : State)
    (hrun : (edits lib).run (fresh zones) es = some t)
    (hproper : (edits lib).Along (Proper base) (fresh zones) es) :
    (edits lib).Along (fun s e => ∀ s', (edits lib).step s e = some s' →
        Survive base lib s') (fresh zones) es ↔
      (edits lib).Along (Supplied base lib) (fresh zones) es := by
  have hstart : Survive base lib (fresh zones) := survive_fresh zones
  constructor
  · intro hsurvive
    -- before a call the property holds because it held after the last one
    have hstep : ∀ s e s', Survive base lib s ∧ NonBlank s →
        (∀ s', (edits lib).step s e = some s' → Survive base lib s') →
          (edits lib).step s e = some s' → Survive base lib s' ∧ NonBlank s' :=
      fun s e s' h hcond hstep =>
        ⟨hcond s' hstep, nonBlank_step s e s' h.2 hstep⟩
    have hnext := Machine.along_invariant hstep es (fresh zones)
      ⟨hstart, fun _ _ h => nomatch h⟩ hsurvive
    have henabled := (edits lib).along_of_run es (fresh zones) t hrun
    refine Machine.along_mono _ ?_ es _ (Machine.along_and _ es _
      (Machine.along_and _ es _ hnext hproper) henabled)
    rintro s e ⟨⟨⟨⟨hs, hnonblank⟩, hcond⟩, hcalls⟩, s', hstep⟩
    exact supplied_of_survive s e s' hs hnonblank hcalls hstep
      (hcond s' hstep)
  · intro hsupplied
    refine Machine.along_mono _ ?_ es _ (Machine.along_invariant survive_step es
      _ hstart (Machine.along_and _ es _ hproper hsupplied))
    rintro s e ⟨hs, hcond⟩ s' hstep
    exact survive_step s e s' hs hcond hstep

/-- A deployment whose cipher marks what it has encrypted. -/
private def marking : Env :=
  { Env.sample with
    encrypt := fun _ text => .ok (0x2A :: text)
    decrypt := fun _ text => .ok text.tail }

/-- An object with one header, and what it is parsed to. -/
private def someHeaders : GoString := "\x7b\"a\":\"b\"\x7d"

private def library : Library where
  toUpper := id
  toLower := id
  unmarshal := fun text =>
    if text = someHeaders then
      .ok fun key => if key = lit "a" then some "b" else none
    else .error (.newError "invalid character")

private def saveRecord (id : Int) (token : GoString) : Edit :=
  .record marking .quiet
    ⟨id, token, 7, "example.org", "www", 60, 2, false, []⟩

private def saveTask (id : Int) (headers : GoString) : Edit :=
  .task marking .quiet
    ⟨id, 1, "notify", 1, [], "https://example.org", headers, [], true, false,
      []⟩

private theorem shares_marking : Shares marking marking :=
  ⟨rfl, rfl, fun text stored h => by
    obtain rfl := Except.ok.inj h
    rfl, fun _ h => nomatch h⟩

/-- A save of the deployment that supplies no blank text but the empty one. -/
private def prudent : Edit → Prop
  | .record env _ input =>
      env = marking ∧ (input.token = [] ∨ input.token.trimSpace ≠ [])
  | .task env _ input =>
      env = marking ∧ (input.headers = [] ∨ input.headers.trimSpace ≠ [])
  | .others _ => False

private theorem proper_of_prudent {s : State} {e : Edit} (h : prudent e) :
    Proper marking s e := by
  cases e with
  | record env o input => exact h.1 ▸ shares_marking
  | task env o input => exact h.1 ▸ shares_marking
  | others w => exact h.elim

private theorem supplied_of_prudent {s : State} {e : Edit} (h : prudent e) :
    Supplied marking library s e := by
  cases e with
  | record env o input =>
      intro _ hne
      exact h.2.resolve_left hne
  | task env o input =>
      intro _ hne hblank
      exact absurd hblank (h.2.resolve_left hne)
  | others w => trivial

/-- A record and a task, each edited without its secret and with a new one. -/
private def edited : List Edit :=
  [saveRecord 0 "one", saveRecord 1 [], saveTask 0 someHeaders, saveTask 1 [],
    saveRecord 1 "two"]

private theorem prudent_edited : ∀ e ∈ edited, prudent e := by
  simp only [edited, List.forall_mem_cons]
  refine ⟨⟨rfl, .inr ?_⟩, ⟨rfl, .inl rfl⟩, ⟨rfl, .inr ?_⟩, ⟨rfl, .inl rfl⟩,
    ⟨rfl, .inr ?_⟩, List.forall_mem_nil _⟩
  all_goals decide

theorem secrets_survive_edits_iff_edited :
    (edits library).Along (fun s e => ∀ s', (edits library).step s e = some s' →
      Survive marking library s') (fresh fun _ _ => none) edited := by
  obtain ⟨t, hrun⟩ := Option.isSome_iff_exists.mp (show ((edits library).run
    (fresh fun _ _ => none) edited).isSome = true by decide +kernel)
  refine (secrets_survive_edits_iff marking library _ edited t hrun ?_).mpr ?_
  · exact Machine.along_of_mem _ _ _ fun e he s =>
      proper_of_prudent (prudent_edited e he)
  · exact Machine.along_of_mem _ _ _ fun e he s =>
      supplied_of_prudent (prudent_edited e he)

/-- A record and a task, each edited with a blank secret. -/
private def blanked : List Edit :=
  [saveRecord 0 "one", saveRecord 1 "  ", saveTask 0 someHeaders,
    saveTask 1 "  "]

/-- **Blank secrets**: a token of blanks replaces the stored one, and headers of
blanks clear the stored ones. -/
theorem blank_secrets_are_stored :
    ∃ s, (edits library).run (fresh fun _ _ => none) blanked = some s ∧
      s.tokens 1 = some "one" ∧
      (tokens s.world 1).map (marking.decrypt marking.encryptionKey) =
        some (.ok "  ") ∧
      s.headers 1 = some someHeaders ∧ headers s.world 1 = some none ∧
      ¬ Survive marking library s := by
  obtain ⟨s, hrun⟩ := Option.isSome_iff_exists.mp (show ((edits library).run
    (fresh fun _ _ => none) blanked).isSome = true by decide +kernel)
  have hend : ∀ s ∈ (edits library).run (fresh fun _ _ => none) blanked,
      s.tokens 1 = some "one" ∧ tokens s.world 1 = some "*  " ∧
        s.headers 1 = some someHeaders ∧ headers s.world 1 = some none := by
    decide +kernel
  obtain ⟨hlast, htoken, hlastHeaders, hheaders⟩ := hend s hrun
  refine ⟨s, hrun, hlast, by rw [htoken]; rfl, hlastHeaders, hheaders,
    fun h => ?_⟩
  obtain ⟨v, hv, hplain⟩ := h.tokens 1 _ htoken
  obtain rfl := Option.some.inj (hlast.symm.trans hv)
  exact absurd (Except.ok.inj hplain) (by decide)

end Hdns.Ports.Secrets

import Hdns.Ports.Schema

/-!
# Storing the public address

`UpdateAddress` resolves the public address pair and makes it the current row
of the `addresses` table: unless the current row already holds the pair, every
current row is reset and a new row is inserted.  The table has a `UNIQUE` key
over both families, so a pair of two addresses that was current *earlier* can
be reset away but not inserted again.

The statements are pure functions on the table, shared by the sequential
program below and by the interleaved one of `UpdateAddressRace`.

## Main results

* `updateAddress_spec` — what a call does under any pattern of failures: it
  touches the `addresses` table only, and a row it returns is stored and holds
  the resolved pair.
* `history_step` — without failures, what one call does to a table that holds
  the pairs of a history.
* `updateAddress_runs_clean_iff` — the sequences of calls that all succeed and
  leave exactly the resolved pair current, characterised exactly.
-/

namespace Hdns.Ports.UpdateAddress

open Hdns.Verified
open Hdns.Ports.Schema

/-! ## Statements on the `addresses` table -/

/-- `GetCurrentAddress`: the first row the scan meets. -/
def currentAddress (t : Table Address) : Option Address :=
  t.rows.find? (·.current)

/-- `ResetCurrentAddresses`. -/
def resetCurrent (t : Table Address) : Table Address :=
  t.updateWhere (·.current) fun a => { a with current := false }

/-- Equality of two nullable columns to a `UNIQUE` key: NULLs never collide. -/
def sameKey (collate : GoString → GoString) : NullString → NullString → Bool
  | some a, some b => collate a == collate b
  | _, _ => false

/-- The row blocks an insert of the pair by the key `(ipv4, ipv6)`. -/
def collides (collate : GoString → GoString) (ipv4 ipv6 : NullString)
    (a : Address) : Bool :=
  sameKey collate a.ipv4 ipv4 && sameKey collate a.ipv6 ipv6

def dataTooLong : GoError := .external "Error 1406: Data too long for column"
def duplicateEntry : GoError := .external "Error 1062: Duplicate entry"

/-- `CreateAddress`: the column lengths are checked before the storage engine
sees the row, the key after an id has been taken. -/
def insertAddress (collate : GoString → GoString) (ipv4 ipv6 : NullString)
    (current : Bool) (t : Table Address) :
    Except GoError Int × Table Address :=
  if tooLong 15 ipv4 || tooLong 39 ipv6 then (.error dataTooLong, t)
  else if t.rows.any (collides collate ipv4 ipv6) then
    (.error duplicateEntry, t.burn)
  else (.ok t.next, t.insert fun id => ⟨id, ipv4, ipv6, current⟩)

/-! ## The program -/

/-- The zero value a row scan leaves when there is no row. -/
def Address.zero : Address := ⟨0, none, none, false⟩

def getCurrentAddress : Handler Address :=
  .query .getCurrentAddress .driver fun w =>
    match currentAddress w.addresses with
    | some a => .ok a
    | none => .error .noRows

def resetCurrentAddresses : Handler Unit :=
  .call .resetCurrentAddresses .driver fun w =>
    (.ok (), { w with addresses := resetCurrent w.addresses })

def createAddress (env : Env) (ipv4 ipv6 : NullString) (current : Bool) :
    Handler Int :=
  .call .createAddress .driver fun w =>
    let r := insertAddress env.collate ipv4 ipv6 current w.addresses
    (r.1, { w with addresses := r.2 })

/-- `resolve`, from what the two consensus rounds return. -/
def resolve (res4 res6 : GoString × Option GoError) :
    Except GoError (GoString × GoString) :=
  if res4.1 = [] ∧ res6.1 = [] then
    let err := GoError.newError
      "failed to resolve public IP address using all configured resolvers"
    let err := res4.2.elim err err.addError
    .error (res6.2.elim err err.addError)
  else .ok (res4.1, res6.1)

/-- The first read of the callback of `UpdateAddress`: finding no row is no
error and leaves the zero struct. -/
def scanCurrent : Handler Address := do
  match ← getCurrentAddress.attempt with
  | .ok addr => pure addr
  | .error .noRows => pure Address.zero
  | .error err => Prog.throw err.wrap

/-- The rest of the callback when the stored pair is another one: reset, insert
and read back, three statements of their own. -/
def replaceAddress (env : Env) (ipv4 ipv6 : GoString) : Handler Address := do
  resetCurrentAddresses.mapError .wrap
  let _ ← (createAddress env (nullString ipv4) (nullString ipv6)
    true).mapError .wrap
  getCurrentAddress.mapError .wrap

/-- The callback of `UpdateAddress`. -/
def saveAddress (env : Env) (ipv4 ipv6 : GoString) : Handler Address := do
  let addr ← scanCurrent
  if addr.ipv4.string = ipv4 ∧ addr.ipv6.string = ipv6 then
    pure addr
  else
    replaceAddress env ipv4 ipv6

def updateAddress (env : Env) : Handler Address :=
  match resolve env.consensus4 env.consensus6 with
  | .error err => Prog.throw err.wrap
  | .ok (ipv4, ipv6) =>
      (saveAddress env ipv4 ipv6).mapError
        (.because "failed to save public IP address to database")

/-! ## Facts about the statements -/

theorem noneCurrent_resetCurrent (t : Table Address) :
    ∀ a ∈ (resetCurrent t).rows, a.current = false := by
  intro a ha
  simp only [resetCurrent, Table.rows_updateWhere, List.mem_map] at ha
  obtain ⟨b, _, rfl⟩ := ha
  split
  · rfl
  · next h => simpa using h

theorem filter_current_resetCurrent (t : Table Address) :
    (resetCurrent t).rows.filter (·.current) = [] := by
  rw [List.filter_eq_nil_iff]
  intro a ha
  simp [noneCurrent_resetCurrent t a ha]

@[simp] theorem currentAddress_resetCurrent (t : Table Address) :
    currentAddress (resetCurrent t) = none := by
  rw [currentAddress, List.find?_eq_none]
  intro a ha
  simp [noneCurrent_resetCurrent t a ha]

/-- After a reset, an inserted current row is the current row. -/
theorem currentAddress_insert (t : Table Address) (ipv4 ipv6 : NullString) :
    currentAddress ((resetCurrent t).insert fun id => ⟨id, ipv4, ipv6, true⟩)
      = some ⟨t.next, ipv4, ipv6, true⟩ := by
  have hnone := currentAddress_resetCurrent t
  unfold currentAddress at hnone ⊢
  rw [Table.rows_insert, List.find?_append, hnone]
  rfl

theorem currentAddress_mem {t : Table Address} {a : Address}
    (h : currentAddress t = some a) : a ∈ t.rows :=
  List.mem_of_find?_eq_some h

theorem currentAddress_current {t : Table Address} {a : Address}
    (h : currentAddress t = some a) : a.current = true := by
  simpa using List.find?_some h

/-- No row stores an empty text: an empty family is NULL. -/
def TextsNonempty (t : Table Address) : Prop :=
  ∀ a ∈ t.rows, a.ipv4 ≠ some [] ∧ a.ipv6 ≠ some []

theorem textsNonempty_empty : TextsNonempty Table.empty := by
  simp [TextsNonempty]

theorem TextsNonempty.resetCurrent {t : Table Address}
    (h : TextsNonempty t) : TextsNonempty (resetCurrent t) := by
  intro a ha
  simp only [UpdateAddress.resetCurrent, Table.rows_updateWhere,
    List.mem_map] at ha
  obtain ⟨b, hb, rfl⟩ := ha
  split
  · exact h b hb
  · exact h b hb

/-- The three ways an insert ends. -/
theorem insertAddress_cases (collate : GoString → GoString)
    (ipv4 ipv6 : NullString) (current : Bool) (t : Table Address) :
    (∃ err, insertAddress collate ipv4 ipv6 current t = (.error err, t)) ∨
      (t.rows.any (collides collate ipv4 ipv6) = true ∧
        insertAddress collate ipv4 ipv6 current t =
          (.error duplicateEntry, t.burn)) ∨
      (t.rows.any (collides collate ipv4 ipv6) = false ∧
        insertAddress collate ipv4 ipv6 current t =
          (.ok t.next, t.insert fun id => ⟨id, ipv4, ipv6, current⟩)) := by
  unfold insertAddress
  split
  · exact .inl ⟨dataTooLong, rfl⟩
  · split
    · next h => exact .inr (.inl ⟨h, rfl⟩)
    · next h => exact .inr (.inr ⟨by simpa using h, rfl⟩)

theorem TextsNonempty.insertAddress {t : Table Address}
    (h : TextsNonempty t) (collate : GoString → GoString)
    (ipv4 ipv6 : GoString) (current : Bool) :
    TextsNonempty (UpdateAddress.insertAddress collate (nullString ipv4)
      (nullString ipv6) current t).2 := by
  rcases insertAddress_cases collate (nullString ipv4) (nullString ipv6)
      current t with ⟨err, he⟩ | ⟨_, he⟩ | ⟨_, he⟩
  · rw [he]; exact h
  · rw [he]; exact h
  · rw [he]
    intro a ha
    rcases List.mem_append.mp ha with ha | ha
    · exact h a ha
    · rw [List.mem_singleton.mp ha]
      exact ⟨nullString_ne_some_nil ipv4, nullString_ne_some_nil ipv6⟩

/-! ## What a call does under any pattern of failures -/

/-- Texts read back as they were stored identify a non-empty column. -/
theorem eq_some_of_string {s : NullString} {x : GoString}
    (h : s.string = x) (hx : x ≠ []) : s = some x := by
  cases s with
  | none => exact absurd h.symm hx
  | some y => exact congrArg some h

/-- The effect of a call on the world and what its answer says about it. -/
structure Saved (ipv4 ipv6 : GoString) (w : World)
    (r : Except GoError Address) (w' : World) : Prop where
  frame : w' = { w with addresses := w'.addresses }
  texts : TextsNonempty w.addresses → TextsNonempty w'.addresses
  stored : ∀ a, r = .ok a →
    a ∈ w'.addresses.rows ∧ a.ipv4.string = ipv4 ∧ a.ipv6.string = ipv6

theorem getCurrentAddress_spec (o : Oracle Call) (s : Sys World) :
    getCurrentAddress.wp o s fun r t => t.state = s.state ∧
      ∀ a, r = .ok a → currentAddress s.state.addresses = some a := by
  refine Prog.wp_query_of ⟨rfl, ?_⟩ ⟨rfl, by simp⟩
  intro a h
  cases hcur : currentAddress s.state.addresses with
  | none => simp [hcur] at h
  | some b => simpa [hcur] using h

theorem scanCurrent_spec (o : Oracle Call) (s : Sys World) :
    scanCurrent.wp o s fun r t => t.state = s.state ∧
      ∀ a, r = .ok a →
        currentAddress s.state.addresses = some a ∨ a = Address.zero := by
  unfold scanCurrent
  rw [Prog.wp_bind, Prog.wp_attempt]
  refine Prog.wp_mono (getCurrentAddress_spec o s) ?_
  rintro (err | a) t ⟨hstate, hread⟩
  · cases err with
    | noRows => exact ⟨hstate, fun a h => .inr (Except.ok.inj h).symm⟩
    | _ => exact ⟨hstate, fun a h => nomatch h⟩
  · exact ⟨hstate, fun b h => .inl (Except.ok.inj h ▸ hread a rfl)⟩

/-- The reset, however it ends. -/
theorem resetCurrentAddresses_spec (o : Oracle Call) (s : Sys World) :
    resetCurrentAddresses.wp o s fun r t =>
      (t.state = s.state ∨
        t.state = { s.state with
          addresses := resetCurrent s.state.addresses }) ∧
      (r = .ok () → t.state = { s.state with
          addresses := resetCurrent s.state.addresses }) :=
  Prog.wp_call_of ⟨.inr rfl, fun _ => rfl⟩ (fun _ => ⟨.inl rfl, nofun⟩)
    (fun _ => ⟨.inr rfl, nofun⟩)

/-- The insert, however it ends. -/
theorem createAddress_spec (env : Env) (ipv4 ipv6 : NullString)
    (current : Bool) (o : Oracle Call) (s : Sys World) :
    (createAddress env ipv4 ipv6 current).wp o s fun r t =>
      (t.state = s.state ∨ t.state = { s.state with addresses :=
        (insertAddress env.collate ipv4 ipv6 current s.state.addresses).2 }) ∧
      (∀ id, r = .ok id → t.state = { s.state with
          addresses := s.state.addresses.insert
            fun id => ⟨id, ipv4, ipv6, current⟩ }) := by
  refine Prog.wp_call_of ⟨.inr rfl, ?_⟩ (fun _ => ⟨.inl rfl, nofun⟩)
    (fun _ => ⟨.inr rfl, nofun⟩)
  intro id hid
  rcases insertAddress_cases env.collate ipv4 ipv6 current s.state.addresses
    with ⟨err, h⟩ | ⟨_, h⟩ | ⟨_, h⟩
  · simp [h] at hid
  · simp [h] at hid
  · simp [h]

theorem replaceAddress_spec (env : Env) (ipv4 ipv6 : GoString)
    (o : Oracle Call) (s : Sys World) :
    (replaceAddress env ipv4 ipv6).wp o s fun r t =>
      Saved ipv4 ipv6 s.state r t.state := by
  unfold replaceAddress
  rw [Prog.wp_bind, Prog.wp_mapError]
  refine Prog.wp_mono (resetCurrentAddresses_spec o s) ?_
  rintro (err | _) t ⟨hreset, hdone⟩
  · rcases hreset with h | h
    · exact ⟨by rw [h], by rw [h]; exact id, nofun⟩
    · exact ⟨by rw [h], by rw [h]; exact TextsNonempty.resetCurrent, nofun⟩
  have ht := hdone rfl
  show Prog.wp _ o t _
  rw [Prog.wp_bind, Prog.wp_mapError]
  refine Prog.wp_mono (createAddress_spec env _ _ true o t) ?_
  rintro (err | id) u ⟨hinsert, hcreated⟩
  · rcases hinsert with h | h
    · refine ⟨by rw [h, ht], ?_, nofun⟩
      rw [h, ht]
      exact TextsNonempty.resetCurrent
    · refine ⟨by rw [h, ht], ?_, nofun⟩
      rw [h, ht]
      exact fun htexts => htexts.resetCurrent.insertAddress _ _ _ _
  have hu := hcreated id rfl
  show Prog.wp _ o u _
  rw [Prog.wp_mapError]
  refine Prog.wp_mono (getCurrentAddress_spec o u) ?_
  rintro r v ⟨hv, hread⟩
  refine ⟨by rw [hv, hu, ht], ?_, ?_⟩
  · rw [hv, hu, ht]
    intro htexts a ha
    rcases List.mem_append.mp ha with ha | ha
    · exact htexts.resetCurrent a ha
    · rw [List.mem_singleton.mp ha]
      exact ⟨nullString_ne_some_nil ipv4, nullString_ne_some_nil ipv6⟩
  · rintro a ha
    cases r with
    | error err => exact nomatch ha
    | ok b =>
        have hcur := hread b rfl
        rw [hu, ht] at hcur
        have hcur := Option.some.inj
          ((currentAddress_insert s.state.addresses _ _).symm.trans hcur)
        have hab : b = a := Except.ok.inj ha
        rw [hv, hu, ht, ← hab, ← hcur]
        exact ⟨List.mem_append_right _ (List.mem_singleton_self _),
          string_nullString ipv4, string_nullString ipv6⟩

/-- Some family was resolved. -/
theorem resolve_ok {res4 res6 : GoString × Option GoError}
    {pair : GoString × GoString} (h : resolve res4 res6 = .ok pair) :
    pair = (res4.1, res6.1) ∧ ¬(pair.1 = [] ∧ pair.2 = []) := by
  unfold resolve at h
  split at h
  · simp at h
  · next hne =>
    obtain rfl := Except.ok.inj h
    exact ⟨rfl, hne⟩

theorem saveAddress_spec (env : Env) {ipv4 ipv6 : GoString}
    (hne : ¬(ipv4 = [] ∧ ipv6 = [])) (o : Oracle Call) (s : Sys World) :
    (saveAddress env ipv4 ipv6).wp o s fun r t =>
      Saved ipv4 ipv6 s.state r t.state := by
  unfold saveAddress
  rw [Prog.wp_bind]
  refine Prog.wp_mono (scanCurrent_spec o s) ?_
  rintro (err | addr) t ⟨ht, hread⟩
  · exact ⟨by rw [ht], by rw [ht]; exact id, nofun⟩
  · show Prog.wp _ o t _
    split
    · next hsame =>
      rw [Prog.wp_pure]
      refine ⟨by rw [ht], by rw [ht]; exact id, ?_⟩
      rintro a ha
      obtain rfl := Except.ok.inj ha
      rcases hread addr rfl with hcur | hzero
      · rw [ht]
        exact ⟨currentAddress_mem hcur, hsame⟩
      · subst hzero
        exact absurd ⟨hsame.1.symm, hsame.2.symm⟩ hne
    · exact ht ▸ replaceAddress_spec env ipv4 ipv6 o t

/-- **A call of `UpdateAddress` under any pattern of failures** touches the
`addresses` table only, keeps empty texts out of it, and returns a stored row
holding the pair the resolvers agreed on. -/
theorem updateAddress_spec (env : Env) (o : Oracle Call) (s : Sys World) :
    (updateAddress env).wp o s fun r t =>
      Saved env.consensus4.1 env.consensus6.1 s.state r t.state := by
  unfold updateAddress
  cases hres : resolve env.consensus4 env.consensus6 with
  | error err => exact ⟨rfl, id, by rintro _ ⟨⟩⟩
  | ok pair =>
      obtain ⟨rfl, hne⟩ := resolve_ok hres
      simp only [Prog.wp_mapError]
      refine Prog.wp_mono (saveAddress_spec env hne o s) ?_
      rintro (err | a) t h
      · exact ⟨h.frame, h.texts, by rintro _ ⟨⟩⟩
      · exact h

/-! ## Sequences of calls without failures -/

/-- A pair `resolve` returns: at least one family is there. -/
structure Pair where
  ipv4 : GoString
  ipv6 : GoString
  resolved : ¬(ipv4 = [] ∧ ipv6 = [])
  deriving DecidableEq

/-- Both texts fit their columns. -/
def Pair.Fits (p : Pair) : Prop :=
  tooLong 15 (nullString p.ipv4) = false ∧
    tooLong 39 (nullString p.ipv6) = false

instance (p : Pair) : Decidable p.Fits :=
  inferInstanceAs (Decidable (_ ∧ _))

/-- Both families are there in both pairs, and the unique key takes the pairs
for equal. -/
def Pair.SameKey (collate : GoString → GoString) (q p : Pair) : Prop :=
  (q.ipv4 ≠ [] ∧ p.ipv4 ≠ [] ∧ collate q.ipv4 = collate p.ipv4) ∧
    (q.ipv6 ≠ [] ∧ p.ipv6 ≠ [] ∧ collate q.ipv6 = collate p.ipv6)

instance (collate : GoString → GoString) (q p : Pair) :
    Decidable (Pair.SameKey collate q p) :=
  inferInstanceAs (Decidable (_ ∧ _))

/-- The row stores the pair. -/
def Pair.StoredIn (p : Pair) (a : Address) : Prop :=
  a.ipv4 = nullString p.ipv4 ∧ a.ipv6 = nullString p.ipv6

/-- The environment in which both consensus rounds end with the pair. -/
def resolving (env : Env) (p : Pair) : Env :=
  { env with consensus4 := (p.ipv4, none), consensus6 := (p.ipv6, none) }

@[simp] theorem resolving_collate (env : Env) (p : Pair) :
    (resolving env p).collate = env.collate := rfl

/-- Exactly one row is current, and it stores the pair. -/
def Holds (t : Table Address) (p : Pair) : Prop :=
  ∃ a, t.rows.filter (·.current) = [a] ∧ p.StoredIn a

/-- Every call of the sequence returns without error and leaves exactly the
pair it resolved current. -/
def RunsClean (env : Env) : World → List Pair → Prop
  | _, [] => True
  | w, p :: ps =>
      (updateAddress (resolving env p)).wp .quiet ⟨w, 0⟩ fun r t =>
        (∃ a, r = .ok a) ∧ Holds t.state.addresses p ∧
          RunsClean env t.state ps

private theorem sameKey_nullString (collate : GoString → GoString)
    (a b : GoString) :
    sameKey collate (nullString a) (nullString b) = true ↔
      a ≠ [] ∧ b ≠ [] ∧ collate a = collate b := by
  unfold nullString
  by_cases ha : a = [] <;> by_cases hb : b = [] <;> simp [sameKey, ha, hb]

/-- A stored pair blocks the insert of exactly the pairs with its key. -/
theorem collides_iff {collate : GoString → GoString} {q p : Pair}
    {a : Address} (h : q.StoredIn a) :
    collides collate (nullString p.ipv4) (nullString p.ipv6) a = true ↔
      Pair.SameKey collate q p := by
  unfold collides Pair.SameKey
  rw [h.1, h.2, Bool.and_eq_true, sameKey_nullString, sameKey_nullString]

/-- A row stores a pair when its texts read back as the pair. -/
theorem storedIn_iff (p : Pair) {a : Address}
    (htexts : a.ipv4 ≠ some [] ∧ a.ipv6 ≠ some []) :
    p.StoredIn a ↔ a.ipv4.string = p.ipv4 ∧ a.ipv6.string = p.ipv6 := by
  have hcol : ∀ (c : NullString) (x : GoString), c ≠ some [] →
      (c = nullString x ↔ c.string = x) := by
    intro c x hc
    constructor
    · rintro rfl; exact string_nullString x
    · rintro rfl
      cases c with
      | none => rfl
      | some y =>
          have hne : y ≠ [] := by simpa using hc
          simp [NullString.string, nullString, hne]
  exact and_congr (hcol _ _ htexts.1) (hcol _ _ htexts.2)

/-- What a table looks like after clean calls that resolved `hist`: the pairs
stored are those of the history, and the current one is the last. -/
structure History (t : Table Address) (hist : List Pair) : Prop where
  texts : TextsNonempty t
  stored : ∀ a ∈ t.rows, ∃ p ∈ hist, p.StoredIn a
  kept : ∀ p ∈ hist, ∃ a ∈ t.rows, p.StoredIn a
  last : ∀ p, hist.getLast? = some p → Holds t p

theorem History.nil : History Table.empty [] where
  texts := textsNonempty_empty
  stored := by simp
  kept := by simp
  last := by simp

/-- The insert of `p` fails: its key was resolved before, and not last. -/
def Blocked (collate : GoString → GoString) (hist : List Pair) (p : Pair) :
    Prop :=
  (∃ q ∈ hist, Pair.SameKey collate q p) ∧ hist.getLast? ≠ some p

instance (collate : GoString → GoString) (hist : List Pair) (p : Pair) :
    Decidable (Blocked collate hist p) :=
  inferInstanceAs (Decidable (_ ∧ _))

theorem Holds.currentAddress {t : Table Address} {p : Pair} (h : Holds t p) :
    ∃ a, currentAddress t = some a ∧ p.StoredIn a := by
  obtain ⟨a, hfilter, ha⟩ := h
  refine ⟨a, ?_, ha⟩
  rw [UpdateAddress.currentAddress, ← List.head?_filter, hfilter]
  rfl

/-- The current row of a history is the row of its last pair. -/
theorem History.current_iff {t : Table Address} {hist : List Pair}
    (h : History t hist) (p : Pair) :
    (∃ a, currentAddress t = some a ∧ a.ipv4.string = p.ipv4 ∧
        a.ipv6.string = p.ipv6) ↔ hist.getLast? = some p := by
  constructor
  · rintro ⟨a, hcur, hpair⟩
    have hmem := currentAddress_mem hcur
    obtain ⟨q, hq, _⟩ := h.stored a hmem
    obtain ⟨l, hl⟩ : ∃ l, hist.getLast? = some l := by
      cases hlast : hist.getLast? with
      | none => simp [List.getLast?_eq_none_iff.mp hlast] at hq
      | some l => exact ⟨l, rfl⟩
    obtain ⟨b, hb, hstored⟩ := (h.last l hl).currentAddress
    obtain rfl : a = b := Option.some.inj (hcur.symm.trans hb)
    have hlpair := (storedIn_iff l (h.texts a hmem)).mp hstored
    rw [hl, Option.some.injEq]
    cases l; cases p
    simp only [Pair.mk.injEq]
    exact ⟨hlpair.1.symm.trans hpair.1, hlpair.2.symm.trans hpair.2⟩
  · intro hlast
    obtain ⟨a, hcur, hstored⟩ := (h.last p hlast).currentAddress
    exact ⟨a, hcur, (storedIn_iff p (h.texts a (currentAddress_mem hcur))).mp
      hstored⟩

/-- Without failures, a call that finds its pair current changes nothing. -/
theorem updateAddress_unchanged (env : Env) {p : Pair} {s : Sys World}
    {a : Address} (hcur : currentAddress s.state.addresses = some a)
    (hsame : a.ipv4.string = p.ipv4 ∧ a.ipv6.string = p.ipv6) :
    (updateAddress (resolving env p)).wp .quiet s fun r t =>
      r = .ok a ∧ t.state = s.state := by
  have hres : resolve (p.ipv4, none) (p.ipv6, none) = .ok (p.ipv4, p.ipv6) := by
    simp [resolve, p.resolved]
  simp [updateAddress, resolving, hres, saveAddress, scanCurrent,
    getCurrentAddress, Prog.wp_bind, hcur, hsame, Except.mapError]

/-- The rows were reset, and the call ended the way the insert ends that
follows the reset. -/
def Replaced (collate : GoString → GoString) (ipv4 ipv6 : GoString)
    (w : World) (r : Except GoError Address) (w' : World) : Prop :=
  let ins := insertAddress collate (nullString ipv4) (nullString ipv6) true
    (resetCurrent w.addresses)
  w' = { w with addresses := ins.2 } ∧
    ((∃ a, r = .ok a) ↔ ∃ id, ins.1 = .ok id)

theorem replaceAddress_quiet (env : Env) (ipv4 ipv6 : GoString)
    (s : Sys World) :
    (replaceAddress env ipv4 ipv6).wp .quiet s fun r t =>
      Replaced env.collate ipv4 ipv6 s.state r t.state := by
  unfold Replaced
  rcases insertAddress_cases env.collate (nullString ipv4) (nullString ipv6)
      true (resetCurrent s.state.addresses)
    with ⟨err, hins⟩ | ⟨_, hins⟩ | ⟨_, hins⟩
  · simp [replaceAddress, resetCurrentAddresses, createAddress,
      getCurrentAddress, Prog.wp_bind, Except.mapError, hins]
  · simp [replaceAddress, resetCurrentAddresses, createAddress,
      getCurrentAddress, Prog.wp_bind, Except.mapError, hins]
  · simp [replaceAddress, resetCurrentAddresses, createAddress,
      getCurrentAddress, Prog.wp_bind, Except.mapError, hins,
      currentAddress_insert]

/-- Without failures, a call that finds another pair current resets it and
ends the way its insert ends. -/
theorem updateAddress_replaces (env : Env) {p : Pair} {s : Sys World}
    (hother : ¬∃ a, currentAddress s.state.addresses = some a ∧
      a.ipv4.string = p.ipv4 ∧ a.ipv6.string = p.ipv6) :
    (updateAddress (resolving env p)).wp .quiet s fun r t =>
      Replaced env.collate p.ipv4 p.ipv6 s.state r t.state := by
  have hres : resolve (p.ipv4, none) (p.ipv6, none) = .ok (p.ipv4, p.ipv6) := by
    simp [resolve, p.resolved]
  have hsave : (saveAddress (resolving env p) p.ipv4 p.ipv6).wp .quiet s
      fun r t => Replaced env.collate p.ipv4 p.ipv6 s.state r t.state := by
    have hreplace := replaceAddress_quiet (resolving env p) p.ipv4 p.ipv6
      ⟨s.state, s.clock + 1⟩
    cases hcur : currentAddress s.state.addresses with
    | none =>
        simpa [saveAddress, scanCurrent, getCurrentAddress, Prog.wp_bind, hcur,
          Address.zero, NullString.string, p.resolved] using hreplace
    | some a =>
        have hne : ¬(a.ipv4.string = p.ipv4 ∧ a.ipv6.string = p.ipv6) :=
          fun h => hother ⟨a, hcur, h⟩
        simpa [saveAddress, scanCurrent, getCurrentAddress, Prog.wp_bind, hcur,
          hne] using hreplace
  unfold updateAddress
  simp only [resolving, hres, Prog.wp_mapError]
  refine Prog.wp_mono hsave ?_
  rintro (err | a) t ⟨hstate, hok⟩
  · exact ⟨hstate, by simpa [Except.mapError] using hok⟩
  · exact ⟨hstate, hok⟩

/-- The current rows after a reset and the insert of a current row. -/
theorem filter_current_insert (t : Table Address) (ipv4 ipv6 : NullString) :
    ((resetCurrent t).insert fun id => ⟨id, ipv4, ipv6, true⟩).rows.filter
      (·.current) = [⟨t.next, ipv4, ipv6, true⟩] := by
  rw [Table.rows_insert, List.filter_append, filter_current_resetCurrent]
  rfl

/-- A reset keeps the pairs a table stores. -/
theorem storedIn_resetCurrent {t : Table Address} (p : Pair) :
    (∃ a ∈ (resetCurrent t).rows, p.StoredIn a) ↔
      ∃ a ∈ t.rows, p.StoredIn a := by
  have hrow : ∀ a : Address,
      p.StoredIn (if a.current then { a with current := false } else a) ↔
        p.StoredIn a := by
    intro a
    split
    · rfl
    · rfl
  simp [resetCurrent, hrow]

/-- The key of `p` is taken in a table exactly when a pair of the history has
it. -/
theorem History.any_collides_iff {t : Table Address} {hist : List Pair}
    (h : History t hist) (collate : GoString → GoString) (p : Pair) :
    (resetCurrent t).rows.any
        (collides collate (nullString p.ipv4) (nullString p.ipv6)) = true ↔
      ∃ q ∈ hist, Pair.SameKey collate q p := by
  rw [List.any_eq_true]
  constructor
  · rintro ⟨a, ha, hcol⟩
    simp only [resetCurrent, Table.rows_updateWhere, List.mem_map] at ha
    obtain ⟨b, hb, rfl⟩ := ha
    obtain ⟨q, hq, hstored⟩ := h.stored b hb
    refine ⟨q, hq, (collides_iff (a := b) hstored).mp ?_⟩
    split at hcol
    · exact hcol
    · exact hcol
  · rintro ⟨q, hq, hkey⟩
    obtain ⟨a, ha, hstored⟩ :=
      (storedIn_resetCurrent q).mpr (h.kept q hq)
    exact ⟨a, ha, (collides_iff hstored).mpr hkey⟩

theorem insertAddress_of_fits {collate : GoString → GoString} {p : Pair}
    (hfits : p.Fits) (t : Table Address)
    (hfree : ¬t.rows.any
      (collides collate (nullString p.ipv4) (nullString p.ipv6)) = true) :
    insertAddress collate (nullString p.ipv4) (nullString p.ipv6) true t =
      (.ok t.next, t.insert fun id =>
        ⟨id, nullString p.ipv4, nullString p.ipv6, true⟩) := by
  simp only [insertAddress, hfits.1, hfits.2, Bool.or_self, Bool.false_eq_true,
    if_false, hfree]

/-- The history grows by the pair that was inserted. -/
theorem History.insert {t : Table Address} {hist : List Pair}
    (h : History t hist) (p : Pair) :
    History ((resetCurrent t).insert fun id =>
      ⟨id, nullString p.ipv4, nullString p.ipv6, true⟩) (hist ++ [p]) where
  texts := by
    intro a ha
    rcases List.mem_append.mp ha with ha | ha
    · exact h.texts.resetCurrent a ha
    · rw [List.mem_singleton.mp ha]
      exact ⟨nullString_ne_some_nil _, nullString_ne_some_nil _⟩
  stored := by
    intro a ha
    rcases List.mem_append.mp ha with ha | ha
    · simp only [resetCurrent, Table.rows_updateWhere, List.mem_map] at ha
      obtain ⟨b, hb, rfl⟩ := ha
      obtain ⟨q, hq, hstored⟩ := h.stored b hb
      refine ⟨q, List.mem_append_left _ hq, ?_⟩
      split
      · exact hstored
      · exact hstored
    · rw [List.mem_singleton.mp ha]
      exact ⟨p, by simp, rfl, rfl⟩
  kept := by
    intro q hq
    rcases List.mem_append.mp hq with hq | hq
    · obtain ⟨a, ha, hstored⟩ :=
        (storedIn_resetCurrent q).mpr (h.kept q hq)
      exact ⟨a, List.mem_append_left _ ha, hstored⟩
    · rw [List.mem_singleton.mp hq]
      exact ⟨_, List.mem_append_right _ (List.mem_singleton_self _), rfl, rfl⟩
  last := by
    intro q hq
    rw [List.getLast?_concat, Option.some.injEq] at hq
    subst hq
    exact ⟨_, filter_current_insert t _ _, rfl, rfl⟩

/-- The history grows by a pair that was current already. -/
theorem History.repeat {t : Table Address} {hist : List Pair} {p : Pair}
    (h : History t hist) (hlast : hist.getLast? = some p) :
    History t (hist ++ [p]) where
  texts := h.texts
  stored := fun a ha =>
    let ⟨q, hq, hstored⟩ := h.stored a ha
    ⟨q, List.mem_append_left _ hq, hstored⟩
  kept := by
    intro q hq
    rcases List.mem_append.mp hq with hq | hq
    · exact h.kept q hq
    · rw [List.mem_singleton.mp hq]
      exact h.kept p (List.mem_of_getLast? hlast)
  last := by
    intro q hq
    rw [List.getLast?_concat, Option.some.injEq] at hq
    exact hq ▸ h.last p hlast

/-- **Step lemma.**  A call on a table that holds a history either is blocked
and fails, or succeeds and extends the history by its pair. -/
theorem history_step (env : Env) {w : World} {hist : List Pair} {p : Pair}
    (h : History w.addresses hist) (hfits : p.Fits) :
    (updateAddress (resolving env p)).wp .quiet ⟨w, 0⟩ fun r t =>
      ((∃ a, r = .ok a) ↔ ¬Blocked env.collate hist p) ∧
        ((∃ a, r = .ok a) → History t.state.addresses (hist ++ [p])) := by
  by_cases hlast : hist.getLast? = some p
  · -- the pair is current already: nothing happens
    obtain ⟨a, hcur, hsame⟩ := (h.current_iff p).mpr hlast
    refine Prog.wp_mono (updateAddress_unchanged env hcur hsame) ?_
    rintro r t ⟨rfl, hstate⟩
    refine ⟨⟨fun _ hb => hb.2 hlast, fun _ => ⟨a, rfl⟩⟩, fun _ => ?_⟩
    rw [hstate]
    exact h.repeat hlast
  · -- another pair is current: the unique key decides
    have hother := fun hcur => hlast ((h.current_iff p).mp hcur)
    refine Prog.wp_mono (updateAddress_replaces env hother) ?_
    rintro r t ⟨hstate, hok⟩
    have hany := h.any_collides_iff env.collate p
    by_cases hkey : ∃ q ∈ hist, Pair.SameKey env.collate q p
    · have hfail : ¬∃ a, r = .ok a := by
        rw [hok]
        simp [insertAddress, hfits.1, hfits.2, hany.mpr hkey]
      exact ⟨⟨fun h => absurd h hfail, fun hb => absurd ⟨hkey, hlast⟩ hb⟩,
        fun h => absurd h hfail⟩
    · have hins := insertAddress_of_fits hfits (resetCurrent w.addresses)
        (mt hany.mp hkey)
      refine ⟨⟨fun _ hb => hkey hb.1, fun _ => hok.mpr ⟨_, by rw [hins]⟩⟩,
        fun _ => ?_⟩
      rw [hstate, hins]
      exact h.insert p

/-- No insert of the sequence is blocked, after `hist`. -/
def NeverBlocked (collate : GoString → GoString) (hist ps : List Pair) :
    Prop :=
  ∀ pre p post, ps = pre ++ p :: post → ¬Blocked collate (hist ++ pre) p

theorem neverBlocked_nil (collate : GoString → GoString) (hist : List Pair) :
    NeverBlocked collate hist [] := fun pre p post h => by simp at h

theorem neverBlocked_cons {collate : GoString → GoString} {hist ps : List Pair}
    {p : Pair} :
    NeverBlocked collate hist (p :: ps) ↔
      ¬Blocked collate hist p ∧ NeverBlocked collate (hist ++ [p]) ps := by
  constructor
  · intro h
    refine ⟨by simpa using h [] p ps rfl, ?_⟩
    intro pre q post hps
    simpa using h (p :: pre) q post (by simp [hps])
  · rintro ⟨hp, hps⟩ pre q post heq
    cases pre with
    | nil =>
        simp only [List.nil_append, List.cons.injEq] at heq
        simpa [← heq.1] using hp
    | cons p' pre =>
        simp only [List.cons_append, List.cons.injEq] at heq
        obtain ⟨rfl, hrest⟩ := heq
        simpa using hps pre q post hrest

/-- **Run lemma.**  From a table that holds a history, a sequence runs clean if
and only if none of its inserts is blocked. -/
theorem runsClean_iff_neverBlocked (env : Env) (ps : List Pair) :
    ∀ (w : World) (hist : List Pair), History w.addresses hist →
      (∀ p ∈ ps, p.Fits) →
      (RunsClean env w ps ↔ NeverBlocked env.collate hist ps) := by
  induction ps with
  | nil =>
      intro w hist _ _
      exact ⟨fun _ => neverBlocked_nil _ _, fun _ => trivial⟩
  | cons p ps ih =>
      intro w hist h hfits
      rw [neverBlocked_cons]
      obtain ⟨hok, hgrow⟩ := history_step env h (hfits p List.mem_cons_self)
      have hfits' : ∀ q ∈ ps, q.Fits :=
        fun q hq => hfits q (List.mem_cons_of_mem _ hq)
      constructor
      · rintro ⟨hreturns, _, hclean⟩
        exact ⟨hok.mp hreturns,
          (ih _ _ (hgrow hreturns) hfits').mp hclean⟩
      · rintro ⟨hfree, hnever⟩
        have hreturns := hok.mpr hfree
        have hhist := hgrow hreturns
        exact ⟨hreturns, hhist.last p List.getLast?_concat,
          (ih _ _ hhist hfits').mpr hnever⟩

/-- **The sequences of calls that run clean.**  From an empty table, every
call returns without error and leaves exactly the pair it resolved current if
and only if a pair of two addresses whose key was resolved before is always the
pair resolved by the call just before. -/
theorem updateAddress_runs_clean_iff (env : Env) (w : World) (ps : List Pair)
    (hempty : w.addresses = Table.empty) (hfits : ∀ p ∈ ps, p.Fits) :
    RunsClean env w ps ↔
      ∀ pre p post, ps = pre ++ p :: post →
        (∃ q ∈ pre, Pair.SameKey env.collate q p) → pre.getLast? = some p := by
  have hnil : History w.addresses [] := hempty ▸ History.nil
  rw [runsClean_iff_neverBlocked env ps w [] hnil hfits]
  simp only [NeverBlocked, Blocked, List.nil_append, not_and, not_not]

private def home : Pair :=
  ⟨"203.0.113.1", "2001:db8::1", by decide⟩

private def away : Pair :=
  ⟨"203.0.113.2", "2001:db8::2", by decide⟩

/-- The table after each call of a sequence, with whether the call returned
without error. -/
def outcomes (env : Env) : World → List Pair → List (Bool × List Address)
  | _, [] => []
  | w, p :: ps =>
      let run := updateAddress (resolving env p) .quiet ⟨w, 0⟩
      (run.1.isOk, run.2.state.addresses.rows) ::
        outcomes env run.2.state ps

/-- The sequence home, home, away runs clean. -/
theorem updateAddress_runs_clean_home_away :
    RunsClean Env.sample (World.init fun _ _ => none) [home, home, away] := by
  refine (updateAddress_runs_clean_iff Env.sample
    (World.init fun _ _ => none) [home, home, away] rfl (by decide)).mpr ?_
  have hnever : NeverBlocked Env.sample.collate [] [home, home, away] := by
    simp only [neverBlocked_cons, neverBlocked_nil]
    decide
  simpa [NeverBlocked, Blocked] using hnever

/-- Returning to an earlier pair of two addresses fails, and leaves the table
without a current row. -/
theorem return_to_earlier_pair_fails :
    ¬RunsClean Env.sample (World.init fun _ _ => none) [home, away, home] ∧
      (outcomes Env.sample (World.init fun _ _ => none)
        [home, away, home]).map (fun c => (c.1, c.2.filter (·.current))) =
        [(true, [⟨1, home.ipv4, home.ipv6, true⟩]),
          (true, [⟨2, away.ipv4, away.ipv6, true⟩]), (false, [])] := by
  refine ⟨?_, by decide⟩
  rintro ⟨_, _, _, _, ⟨a, hthird⟩, _⟩
  have hok : Except.isOk _ = true := congrArg Except.isOk hthird
  exact absurd hok (by decide)

end Hdns.Ports.UpdateAddress

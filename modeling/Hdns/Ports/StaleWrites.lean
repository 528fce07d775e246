import Hdns.Ports.Operations
import Hdns.Ports.RefreshSteps

/-!
# Stale writes of addresses

A call carries the address it has stored or read through requests that take
their time, and nothing compares it with the table again before a write.  A
thread of this machine is one call of `Refresh`, `UpsertRecord` or the API's
`RefreshRecord` and `RefreshAddress`; a step is one of its statements, under an
environment and an oracle of its own.

## Main results

* `next_effect` — what one statement can do to the addresses and the writes.
* `Unheld` — an address is inserted only while no other call is about to insert
  one or holds one.
* `inv_step`, `writes_never_go_back` — under that condition the address ids
  written to a record set never decrease.
-/

namespace Hdns.Ports.StaleWrites

open Hdns.Verified
open Hdns.Ports.Schema
open Hdns.Ports.UpdateAddress
open Hdns.Ports.Hetzner
open Hdns.Ports.Service
open Hdns.Ports.Records
open Hdns.Ports.Operations
open Hdns.Ports.RefreshSteps

/-! ## The machine -/

/-- The database and the zones, and the calls. -/
structure State where
  world : World
  threads : Pool Pc

/-- Before any call. -/
def start (w : World) : State := ⟨w, fun _ => .idle⟩

/-- The functions a thread can call. -/
inductive Entry where
  | refresh
  | serverRefreshRecord (id : Int)
  | serverRefreshAddress
  | upsertRecord (input : RecordInput)

/-- The first statement of a call. -/
def Entry.pc : Entry → Pc
  | .refresh => .resolve .pass
  | .serverRefreshRecord id => .load id
  | .serverRefreshAddress => .resolve .address
  | .upsertRecord input => .save input

/-- A label: thread `i` starts a call or carries out its next statement, or
something else changes what only the calls of this module read. -/
inductive Label where
  | call (i : Nat) (e : Entry)
  | next (i : Nat) (env : Env) (o : Oracle Call)
  | others (c : Elsewhere)

/-- The machine of concurrent calls. -/
def refreshes : Machine State Label where
  step s
    | .call i e =>
        match s.threads i with
        | .idle => some ⟨s.world, s.threads.set i e.pc⟩
        | _ => none
    | .next i env o =>
        match (s.threads i).next env o ⟨s.world, 0⟩ with
        | (.ok pc, t) => some ⟨t.state, s.threads.set i pc⟩
        | (.error _, _) => none
    | .others c => some ⟨(Op.elsewhere c).apply s.world, s.threads⟩

/-! ## Writes, and the addresses of calls -/

/-- The record set an event writes, and the id of the address. -/
def writeOf : Event → Option ((Int × GoString) × Int)
  | .writeA record addr _ _ => some ((record.zoneID, record.name), addr.id)
  | _ => none

/-- The writes of record sets so far. -/
def written (w : World) : List ((Int × GoString) × Int) :=
  w.events.filterMap writeOf

/-- The ids written to a record set never decrease. -/
def NeverBack (ws : List ((Int × GoString) × Int)) : Prop :=
  ws.Pairwise fun x y => x.1 = y.1 → x.2 ≤ y.2

/-- The call is between its reset and its insert. -/
def Pc.Creating (pc : Pc) : Prop := ∃ job p, pc = .create job p

/-- The statement inserts an address. -/
def Pc.inserts : Pc → Bool
  | .create _ _ => true
  | _ => false

theorem Pc.not_creating {pc : Pc} (h : Pc.inserts pc = false) :
    ¬Pc.Creating pc := by
  rintro ⟨job, p, rfl⟩
  cases h

/-- The address a call has in hand. -/
def Pc.held : Pc → Option Address
  | .list addr => some addr
  | .visit addr _ _ _ => some addr
  | .compare addr _ _ => some addr
  | .read addr _ _ => some addr
  | .write addr _ _ _ => some addr
  | .place addr _ _ => some addr
  | _ => none

/-- A call issues its `CreateAddress` only while no other call is between its
reset and its insert or has an address in hand. -/
def Unheld (s : State) : Label → Prop
  | .next i _ _ => Pc.Creating (s.threads i) → ∀ j, j ≠ i →
      ¬Pc.Creating (s.threads j) ∧ Pc.held (s.threads j) = none
  | _ => True

/-! ## What a statement can do -/

/-- The rows of the addresses and the writes. -/
def view (w : World) : List Address × List ((Int × GoString) × Int) :=
  (w.addresses.rows, written w)

/-- Neither the rows of the addresses nor the writes change. -/
def Quiet (w w' : World) : Prop := view w' = view w

theorem Quiet.refl (w : World) : Quiet w w := rfl

theorem Quiet.trans (w₁ w₂ w₃ : World) (h : Quiet w₁ w₂)
    (h' : Quiet w₂ w₃) : Quiet w₁ w₃ := Eq.trans h' h

theorem Quiet.calm (w w' : World) (h : Calm w w') : Quiet w w' := by
  obtain ⟨es, hes, hcalm⟩ := h.events
  have hnone : es.filterMap writeOf = [] := by
    refine List.filterMap_eq_nil_iff.mpr fun e he => ?_
    cases e with
    | writeA r addr before after => exact absurd rfl (hcalm _ he)
    | _ => rfl
  unfold Quiet view written
  rw [h.addresses, hes, List.filterMap_append, hnone, List.append_nil]

theorem Quiet.runs (w w' : World) (h : RunsTasks w w') : Quiet w w' := by
  obtain ⟨es, hes, hruns⟩ := h.events
  have hnone : es.filterMap writeOf = [] := by
    refine List.filterMap_eq_nil_iff.mpr fun e he => ?_
    obtain ⟨id, event, rfl⟩ := hruns e he
    rfl
  unfold Quiet view written
  rw [h.frame, hes, List.filterMap_append, hnone, List.append_nil]

/-- What a statement does to the addresses and the writes, and what the call
has in hand after it. -/
inductive Effect (pc : Pc) (w : World) (pc' : Pc) (w' : World) : Prop
  /-- Nothing changes; an address in hand is the one from before or one that
  is current. -/
  | quiet (hview : Quiet w w') (hcreating : ¬Pc.Creating pc')
      (hheld : ∀ a, Pc.held pc' = some a →
        Pc.held pc = some a ∨ a ∈ w.addresses.rows ∧ a.current = true)
  /-- No row is current any more. -/
  | reset (hview : view w' = ((resetCurrent w.addresses).rows, written w))
      (hheld : Pc.held pc' = none)
  /-- A current row is inserted. -/
  | insert (a : Address) (hcurrent : a.current = true)
      (hnewest : ∀ b ∈ w.addresses.rows, b.id < a.id)
      (hview : view w' = (w.addresses.rows ++ [a], written w))
      (hcreated : Pc.Creating pc) (hcreating : ¬Pc.Creating pc')
      (hheld : Pc.held pc' = none)
  /-- The address in hand is written. -/
  | write (a : Address) (key : Int × GoString) (hin : Pc.held pc = some a)
      (hview : view w' = (w.addresses.rows, written w ++ [(key, a.id)]))
      (hcreating : ¬Pc.Creating pc')
      (hheld : ∀ b, Pc.held pc' = some b → b = a)

/-- What follows quietly does not change the effect. -/
theorem Effect.then {pc pc' : Pc} {w t u : World} (h : Effect pc w pc' t)
    (hquiet : Quiet t u) : Effect pc w pc' u := by
  have hview : view u = view t := hquiet
  cases h with
  | quiet h hcreating hheld => exact .quiet (hview.trans h) hcreating hheld
  | reset h hheld => exact .reset (hview.trans h) hheld
  | insert a hcurrent hnewest h hcreated hcreating hheld =>
      exact .insert a hcurrent hnewest (hview.trans h) hcreated hcreating hheld
  | write a key hin h hcreating hheld =>
      exact .write a key hin (hview.trans h) hcreating hheld

/-! ### Statements that change neither -/

/-- The program is quiet and leaves the call with an address of `A` in hand at
most. -/
def Settles (o : Oracle Call) (A : Address → Prop) (p : Handler Pc) : Prop :=
  ∀ s, p.wpOk o s fun pc t => Quiet s.state t.state ∧ ¬Pc.Creating pc ∧
    ∀ a, Pc.held pc = some a → A a

section Settles

variable {o : Oracle Call} {A : Address → Prop}

theorem settles_pure {pc : Pc} (hcreating : ¬Pc.Creating pc)
    (hheld : ∀ a, Pc.held pc = some a → A a) : Settles o A (pure pc) :=
  fun s => Prog.wpOk_pure ⟨Quiet.refl s.state, hcreating, hheld⟩

theorem settles_unheld {pc : Pc} (hinserts : Pc.inserts pc = false)
    (hheld : Pc.held pc = none) : Settles o A (pure pc) :=
  settles_pure (Pc.not_creating hinserts) fun a ha => by
    rw [hheld] at ha
    cases ha

theorem settles_bind {α : Type} {p : Handler α} {f : α → Handler Pc}
    (hp : Prog.Keeps o Quiet p) (hf : ∀ a, Settles o A (f a)) :
    Settles o A (p >>= f) := by
  intro s
  refine Prog.wpOk_bind (Prog.wpOk_mono (Prog.wpOk_of_keeps hp) ?_)
  intro a t hquiet
  refine Prog.wpOk_mono (hf a t) ?_
  rintro pc u ⟨h, hrest⟩
  exact ⟨Quiet.trans _ _ _ hquiet h, hrest⟩

theorem settles_returned (r : Except GoError Unit) :
    Settles o A (pure (.returned r)) := settles_unheld rfl rfl

theorem settles_failWith (err : GoError) : Settles o A (failWith err) :=
  settles_returned _

theorem settles_ended {α : Type} {p : Handler α}
    (hp : Prog.Keeps o Quiet p) : Settles o A (ended p) :=
  settles_bind (.attempt hp) fun _ => settles_returned _

theorem settles_giveUp (env : Env) (report : Report) (err : GoError)
    (message : GoString) :
    Settles o A (ended (giveUp env report err message)) :=
  settles_ended ((giveUp_calm o env report err message).mono Quiet.calm)

theorem settles_failed (env : Env) (err : GoError) (job : Job) :
    Settles o A (job.failed env err) := by
  cases job with
  | pass => exact settles_giveUp env _ err _
  | server record => exact settles_failWith _
  | address => exact settles_failWith _

theorem countResult_quiet (env : Env) (record : Record) (result : GoString)
    (report : Report) :
    Prog.Keeps o Quiet (countResult env record result report) :=
  countResult_keeps Quiet.refl Quiet.trans env
    ((fireTasks_runs o env _ _ _).mono Quiet.runs) result report

theorem settles_settle (env : Env) {addr : Address} (report : Report)
    (record : Record) (status : RecordStatus) (rest all : List Record)
    (haddr : A addr) :
    Settles o A (settle env addr report record status rest all) := by
  refine settles_bind (.attempt (countResult_quiet env record _ report))
    fun r => ?_
  cases r with
  | error err => exact settles_failWith err
  | ok report =>
      exact settles_pure (Pc.not_creating rfl) fun a h =>
        Option.some.inj h ▸ haddr

theorem settles_resume (env : Env) {addr : Address} (record : Record)
    (u : Except GoError Record) (k : After) (haddr : A addr) :
    Settles o A (k.resume env addr record u) := by
  cases k with
  | pass report status rest all =>
      cases u with
      | error err => exact settles_settle env report record _ rest all haddr
      | ok _ => exact settles_settle env report record _ rest all haddr
  | server =>
      cases u with
      | error err => exact settles_failWith _
      | ok _ => exact settles_returned _
  | save =>
      cases u with
      | error err => exact settles_failWith _
      | ok saved =>
          refine settles_bind (.attempt
            ((fireTasks_runs o env _ _ _).mono Quiet.runs)) fun r => ?_
          cases r with
          | error err => exact settles_failWith _
          | ok _ => exact settles_unheld rfl rfl

theorem settles_visitRecord (env : Env) {addr : Address} (report : Report)
    (record : Record) (rest all : List Record) (haddr : A addr) :
    Settles o A (visitRecord env addr report record rest all) := by
  have hheld : ∀ a, some addr = some a → A a :=
    fun a h => Option.some.inj h ▸ haddr
  unfold visitRecord
  split
  · dsimp only
    cases addr.ipv4 with
    | none => exact settles_settle env report record _ rest all haddr
    | some ipv4 =>
        refine settles_bind (.attempt
          ((fetchRecord_calm o env record).mono Quiet.calm)) fun r => ?_
        cases r with
        | error err => exact settles_settle env report record _ rest all haddr
        | ok found =>
            dsimp only
            split
            · exact settles_settle env report record _ rest all haddr
            · exact settles_pure (Pc.not_creating rfl) hheld
  · exact settles_pure (Pc.not_creating rfl) hheld

end Settles

/-! ### Every statement -/

section NextEffect

variable {o : Oracle Call} {s : Sys World} {pc : Pc}

/-- A quiet statement that leaves the call with what it has in hand at most. -/
theorem effect_of_settles {p : Handler Pc}
    (h : Settles o (fun a => Pc.held pc = some a) p) :
    p.wpOk o s fun pc' t => Effect pc s.state pc' t.state :=
  Prog.wpOk_mono (h s) fun _ _ ⟨hview, hcreating, hheld⟩ =>
    .quiet hview hcreating fun a ha => .inl (hheld a ha)

/-- The same after the world has been read. -/
private theorem effect_of_read {p : Handler Pc} {t : Sys World}
    (ht : t.state = s.state)
    (h : Settles o (fun a => Pc.held pc = some a ∨
      a ∈ s.state.addresses.rows ∧ a.current = true) p) :
    p.wpOk o t fun pc' u => Effect pc s.state pc' u.state := by
  rw [← ht] at h ⊢
  exact Prog.wpOk_mono (h t) fun _ _ ⟨hview, hcreating, hheld⟩ =>
    .quiet hview hcreating hheld

/-- A call takes up an address that is current. -/
private theorem settles_stored {addr : Address} {t : Table Address}
    (haddr : currentAddress t = some addr) (job : Job) :
    Settles o (fun a => Pc.held pc = some a ∨
      a ∈ t.rows ∧ a.current = true) (pure (job.stored addr)) := by
  have hcurrent : ∀ a, some addr = some a → a ∈ t.rows ∧ a.current = true := by
    intro a ha
    obtain rfl := Option.some.inj ha
    exact ⟨currentAddress_mem haddr, currentAddress_current haddr⟩
  cases job with
  | pass =>
      exact settles_pure (Pc.not_creating rfl) fun a ha =>
        .inr (hcurrent a ha)
  | server record =>
      exact settles_pure (Pc.not_creating rfl) fun a ha =>
        .inr (hcurrent a ha)
  | address => exact settles_unheld rfl rfl

private theorem scan_effect (env : Env) (job : Job) (p : Pair) :
    ((Pc.scan job p).next env).wpOk o s fun pc' t =>
      Effect (.scan job p) s.state pc' t.state := by
  refine Prog.wpOk_bind (Prog.wpOk_mono (Prog.wpOk_attempt_of_wp
    (scanCurrent_spec o s)) ?_)
  rintro r t ⟨ht, hread⟩
  cases r with
  | error err => exact effect_of_read ht (settles_failed env _ job)
  | ok addr =>
      dsimp only
      split
      · next hsame =>
        rcases hread addr rfl with hcurrent | rfl
        · exact effect_of_read ht (settles_stored hcurrent job)
        · -- the zero struct holds no family, and the pair does
          exact absurd ⟨hsame.1.symm, hsame.2.symm⟩ p.resolved
      · exact effect_of_read ht (settles_unheld rfl rfl)

private theorem reread_effect (env : Env) (job : Job) :
    ((Pc.reread job).next env).wpOk o s fun pc' t =>
      Effect (.reread job) s.state pc' t.state := by
  refine Prog.wpOk_bind (Prog.wpOk_attempt_of_wp ((Prog.wp_mapError _ _ _).mpr
    (Prog.wp_mono (getCurrentAddress_spec o s) ?_)))
  rintro r t ⟨ht, hread⟩
  cases r with
  | error err => exact effect_of_read ht (settles_failed env _ job)
  | ok addr => exact effect_of_read ht (settles_stored (hread addr rfl) job)

private theorem current_effect (env : Env) (record : Record) :
    ((Pc.current record).next env).wpOk o s fun pc' t =>
      Effect (.current record) s.state pc' t.state := by
  refine Prog.wpOk_bind (Prog.wpOk_attempt_of_wp ((Prog.wp_mapError _ _ _).mpr
    (Prog.wp_mono (getCurrentAddress_spec o s) ?_)))
  rintro r t ⟨ht, hread⟩
  cases r with
  | error err => exact effect_of_read ht (settles_failWith _)
  | ok addr =>
      have hcurrent := hread addr rfl
      rcases addr with ⟨id, ipv4, ipv6, current⟩
      cases ipv4 with
      | none => exact effect_of_read ht (settles_failWith _)
      | some ipv4 =>
          refine effect_of_read ht (settles_pure (Pc.not_creating rfl)
            fun a ha => .inr ?_)
          obtain rfl := Option.some.inj ha
          exact ⟨currentAddress_mem hcurrent, currentAddress_current hcurrent⟩

/-- A tail that is quiet leaves the effect as it is. -/
private theorem effect_then {pc₁ : Pc} {t : Sys World} {p : Handler Pc}
    {A : Address → Prop} (h : Settles o A p)
    (heffect : ∀ pc', ¬Pc.Creating pc' → (∀ a, Pc.held pc' = some a → A a) →
      Effect pc₁ s.state pc' t.state) :
    p.wpOk o t fun pc' u => Effect pc₁ s.state pc' u.state :=
  Prog.wpOk_mono (h t) fun pc' _ ⟨hview, hcreating, hheld⟩ =>
    (heffect pc' hcreating hheld).then hview

private theorem held_eq_none {pc : Pc}
    (h : ∀ a, Pc.held pc = some a → False) : Pc.held pc = none :=
  Option.eq_none_iff_forall_ne_some.mpr h

private theorem reset_effect (env : Env) (job : Job) (p : Pair) :
    ((Pc.reset job p).next env).wpOk o s fun pc' t =>
      Effect (.reset job p) s.state pc' t.state := by
  refine Prog.wpOk_bind (Prog.wpOk_attempt_of_wp ((Prog.wp_mapError _ _ _).mpr
    (Prog.wp_mono (resetCurrentAddresses_spec o s) ?_)))
  rintro r t ⟨hstate, hdone⟩
  cases r with
  | error err =>
      refine effect_then (A := fun _ => False) (settles_failed env _ job)
        fun pc' hcreating hheld => ?_
      rcases hstate with ht | ht
      · rw [ht]
        exact .quiet rfl hcreating fun a ha => (hheld a ha).elim
      · rw [ht]
        exact .reset rfl (held_eq_none hheld)
  | ok _ =>
      have ht := hdone rfl
      exact Prog.wpOk_pure (.reset (by rw [ht]; rfl) rfl)

private theorem create_effect (env : Env) (job : Job) (p : Pair) :
    ((Pc.create job p).next env).wpOk o s fun pc' t =>
      Effect (.create job p) s.state pc' t.state := by
  have hinserted : ∀ t : Sys World, t.state = { s.state with
      addresses := s.state.addresses.insert fun id =>
        ⟨id, nullString p.ipv4, nullString p.ipv6, true⟩ } →
      ∀ pc', ¬Pc.Creating pc' → Pc.held pc' = none →
        Effect (.create job p) s.state pc' t.state := by
    intro t ht pc' hcreating hheld
    rw [ht]
    exact .insert _ rfl (fun b hb => s.state.addresses.fresh b hb) rfl
      ⟨job, p, rfl⟩ hcreating hheld
  refine Prog.wpOk_bind (Prog.wpOk_attempt_of_wp ((Prog.wp_mapError _ _ _).mpr
    (Prog.wp_mono (createAddress_spec env _ _ true o s) ?_)))
  rintro r t ⟨hstate, hdone⟩
  cases r with
  | error err =>
      refine effect_then (A := fun _ => False) (settles_failed env _ job)
        fun pc' hcreating hheld => ?_
      have hquiet : t.state.addresses.rows = s.state.addresses.rows →
          written t.state = written s.state →
          Effect (.create job p) s.state pc' t.state := fun hrows hwritten =>
        .quiet (Prod.ext hrows hwritten) hcreating fun a ha =>
          (hheld a ha).elim
      rcases hstate with ht | ht
      · rw [ht] at hquiet ⊢
        exact hquiet rfl rfl
      · rcases insertAddress_cases env.collate (nullString p.ipv4)
          (nullString p.ipv6) true s.state.addresses
          with ⟨err, h⟩ | ⟨_, h⟩ | ⟨_, h⟩
        · rw [ht, h] at hquiet ⊢
          exact hquiet rfl rfl
        · rw [ht, h] at hquiet ⊢
          exact hquiet rfl rfl
        · rw [h] at ht
          exact hinserted t ht pc' hcreating (held_eq_none hheld)
  | ok id => exact Prog.wpOk_pure (hinserted t (hdone id rfl) _
      (Pc.not_creating rfl) rfl)

/-- What the request of a write does, whether it is answered or not. -/
private theorem writeRRSet_keeps (addr : Address) (record : Record)
    (found : Option RRSet) :
    Prog.Keeps o (fun w w' => w' = w ∨ ∃ new, w' = write record addr new w)
      (writeRRSet addr record found) := by
  unfold writeRRSet
  cases found with
  | none =>
      refine .mapError (.mapError (.call (fun _ => .inl rfl) fun w => ?_) _) _
      unfold createRRSet
      split
      · exact .inl rfl
      · exact .inr ⟨_, rfl⟩
  | some _ =>
      refine .mapError (.mapError (.call (fun _ => .inl rfl) fun w => ?_) _) _
      unfold setRRSetRecords
      split
      · exact .inl rfl
      · exact .inr ⟨_, rfl⟩

private theorem write_effect (env : Env) (addr : Address) (record : Record)
    (found : Option RRSet) (k : After) :
    ((Pc.write addr record found k).next env).wpOk o s fun pc' t =>
      Effect (.write addr record found k) s.state pc' t.state := by
  refine Prog.wpOk_bind (Prog.wpOk_mono (Prog.wpOk_attempt_of_wp
    (writeRRSet_keeps addr record found s)) ?_)
  intro r t hstate
  have htail : ∀ {q : Handler Pc}, Settles o (· = addr) q →
      q.wpOk o t fun pc' u =>
        Effect (.write addr record found k) s.state pc' u.state := by
    intro q hq
    refine effect_then hq fun pc' hcreating hheld => ?_
    rcases hstate with ht | ⟨new, ht⟩
    · rw [ht]
      exact .quiet rfl hcreating fun a ha => .inl (hheld a ha ▸ rfl)
    · rw [ht]
      refine .write addr (record.zoneID, record.name) rfl ?_ hcreating hheld
      unfold view written write
      rw [List.filterMap_append]
      rfl
  cases r with
  | error err => exact htail (settles_resume env record _ k rfl)
  | ok _ =>
      exact htail (settles_pure (Pc.not_creating rfl) fun a ha =>
        (Option.some.inj ha).symm)

/-- **Effect lemma.**  One statement of a call. -/
theorem next_effect (env : Env) (pc : Pc) :
    (pc.next env).wpOk o s fun pc' t => Effect pc s.state pc' t.state := by
  have hcalm : ∀ {α : Type} {p : Handler α}, Prog.Keeps o Calm p →
      Prog.Keeps o Quiet p := fun h => h.mono Quiet.calm
  cases pc with
  | idle => exact Prog.wpOk_throw _
  | returned r => exact Prog.wpOk_throw _
  | load id =>
      refine effect_of_settles (settles_bind (.attempt
        (hcalm (getRecord_calm o id))) fun r => ?_)
      cases r with
      | error err => exact settles_failWith _
      | ok record => exact settles_unheld rfl rfl
  | resolve job =>
      refine effect_of_settles ?_
      rw [Pc.next]
      cases resolvedPair env with
      | error err => exact settles_failed env err job
      | ok p => exact settles_unheld rfl rfl
  | scan job p => exact scan_effect env job p
  | reset job p => exact reset_effect env job p
  | create job p => exact create_effect env job p
  | reread job => exact reread_effect env job
  | list addr =>
      refine effect_of_settles (settles_bind (.attempt
        (.mapError (.query Quiet.refl) _)) fun r => ?_)
      cases r with
      | error err => exact settles_giveUp env _ err _
      | ok records => exact settles_pure (Pc.not_creating rfl) fun _ h => h
  | visit addr report rest all =>
      cases rest with
      | nil =>
          refine effect_of_settles (settles_ended ?_)
          exact .bind Quiet.trans (.foldlM Quiet.refl Quiet.trans
            (fun report record => hcalm (certificateOne_calm o env report
              record)) _ _) fun report => hcalm (finishReport_calm o report)
      | cons record rest =>
          exact effect_of_settles
            (settles_visitRecord env report record rest all rfl)
  | save input =>
      refine effect_of_settles (settles_bind (.attempt (.bind Quiet.trans
        (.ofExcept Quiet.refl _) fun encrypted => .mapError
          (hcalm (saveRecord_calm o env input encrypted)) _)) fun r => ?_)
      cases r with
      | error err => exact settles_failWith _
      | ok record =>
          dsimp only
          split
          · exact settles_unheld rfl rfl
          · exact settles_unheld rfl rfl
  | current record => exact current_effect env record
  | compare addr ipv4 record =>
      refine effect_of_settles (settles_bind (.attempt
        (hcalm (fetchRecord_calm o env record))) fun r => ?_)
      cases r with
      | error err => exact settles_failWith _
      | ok found =>
          dsimp only
          split
          · exact settles_unheld rfl rfl
          · exact settles_pure (Pc.not_creating rfl) fun _ h => h
  | read addr record k =>
      refine effect_of_settles (settles_bind (.attempt (.bind Quiet.trans
        (.ofExcept Quiet.refl _) fun _ => .mapError (.mapError (.mapError
          (.query Quiet.refl) _) _) _)) fun r => ?_)
      cases r with
      | error err => exact settles_resume env record _ k rfl
      | ok found => exact settles_pure (Pc.not_creating rfl) fun _ h => h
  | write addr record found k => exact write_effect env addr record found k
  | place addr record k =>
      refine effect_of_settles (settles_bind (.attempt (.bind Quiet.trans
        (.mapError (hcalm (updateRecordAddress_calm o _ _)) _) fun _ =>
          .pure Quiet.refl _)) fun u => ?_)
      exact settles_resume env record u k rfl
  | finish record =>
      refine effect_of_settles (settles_ended (.bind Quiet.trans
        (hcalm (issueAfterSave_calm o env record)) fun _ =>
          hcalm (answer_calm o record)))

end NextEffect

/-! ## Runs -/

/-- `a` is a row, as far as its id goes, and none has a greater id. -/
def Newest (rows : List Address) (a : Address) : Prop :=
  (∃ b ∈ rows, b.id = a.id) ∧ ∀ b ∈ rows, b.id ≤ a.id

/-- No row is current while the call is about to insert, and what it has in
hand is the newest row. -/
def Fits (rows : List Address) (pc : Pc) : Prop :=
  (Pc.Creating pc → ∀ a ∈ rows, a.current = false) ∧
    ∀ a, Pc.held pc = some a → Newest rows a

/-- A current row is the newest one, the calls fit the rows, and the writes so
far are of stored rows and never go back. -/
structure Inv (s : State) : Prop where
  newest : ∀ a ∈ s.world.addresses.rows, a.current = true →
    ∀ b ∈ s.world.addresses.rows, b.id ≤ a.id
  fits : ∀ i, Fits s.world.addresses.rows (s.threads i)
  stored : ∀ x ∈ written s.world, ∃ b ∈ s.world.addresses.rows, b.id = x.2
  neverBack : NeverBack (written s.world)

theorem inv_start (zones : Zones) : Inv (start (World.init zones)) where
  newest := nofun
  fits := fun _ => ⟨nofun, nofun⟩
  stored := nofun
  neverBack := List.Pairwise.nil

/-- A call with nothing in hand that is not about to insert fits any rows. -/
theorem fits_of_none {rows : List Address} {pc : Pc}
    (hcreating : ¬Pc.Creating pc) (hheld : Pc.held pc = none) :
    Fits rows pc := by
  refine ⟨fun h => absurd h hcreating, fun a ha => ?_⟩
  rw [hheld] at ha
  cases ha

/-- A reset keeps the ids of the rows. -/
theorem id_mem_resetCurrent (t : Table Address) (n : Int) :
    (∃ b ∈ (resetCurrent t).rows, b.id = n) ↔ ∃ b ∈ t.rows, b.id = n := by
  unfold resetCurrent
  simp only [Table.rows_updateWhere, List.mem_map, exists_exists_and_eq_and]
  refine exists_congr fun b => and_congr_right fun _ => ?_
  split
  · rfl
  · rfl

theorem newest_resetCurrent {t : Table Address} {a : Address}
    (h : Newest t.rows a) : Newest (resetCurrent t).rows a := by
  refine ⟨(id_mem_resetCurrent t a.id).mpr h.1, fun c hc => ?_⟩
  obtain ⟨b, hb, hid⟩ := (id_mem_resetCurrent t c.id).mp ⟨c, hc, rfl⟩
  rw [← hid]
  exact h.2 b hb

/-- The other calls stay where they are, and call `i` goes to `pc`. -/
private theorem fits_set {rows : List Address} {s : State} {i : Nat} {pc : Pc}
    (hi : Fits rows pc) (hrest : ∀ j, j ≠ i → Fits rows (s.threads j)) :
    ∀ j, Fits rows (s.threads.set i pc j) :=
  (Pool.forall_set (P := fun _ => Fits rows) s.threads i pc).mpr ⟨hi, hrest⟩

/-- The invariant after a statement of call `i`, from its effect. -/
theorem inv_effect {s : State} {i : Nat} {pc : Pc} {w : World} (h : Inv s)
    (hunheld : Pc.Creating (s.threads i) → ∀ j, j ≠ i →
      ¬Pc.Creating (s.threads j) ∧ Pc.held (s.threads j) = none)
    (heffect : Effect (s.threads i) s.world pc w) :
    Inv ⟨w, s.threads.set i pc⟩ := by
  have hview : ∀ {rows ws}, view w = (rows, ws) →
      w.addresses.rows = rows ∧ written w = ws := Prod.mk.inj
  cases heffect with
  | quiet hquiet hcreating hheld =>
      obtain ⟨hrows, hwritten⟩ := hview hquiet
      constructor
      · simpa only [hrows] using h.newest
      · simp only [hrows]
        refine fits_set ⟨fun hc => absurd hc hcreating, ?_⟩ fun j _ => h.fits j
        intro a ha
        rcases hheld a ha with hin | ⟨hmem, hcurrent⟩
        · exact (h.fits i).2 a hin
        · exact ⟨⟨a, hmem, rfl⟩, h.newest a hmem hcurrent⟩
      · simpa only [hrows, hwritten] using h.stored
      · simpa only [hwritten] using h.neverBack
  | reset hreset hheld =>
      obtain ⟨hrows, hwritten⟩ := hview hreset
      have hnone := noneCurrent_resetCurrent s.world.addresses
      constructor
      · simp only [hrows]
        intro a ha hcurrent
        exact absurd (hnone a ha) (by simp [hcurrent])
      · simp only [hrows]
        have hi : Fits (resetCurrent s.world.addresses).rows pc :=
          ⟨fun _ => hnone, fun a ha => nomatch hheld.symm.trans ha⟩
        refine fits_set hi fun j _ => ⟨fun _ => hnone, fun a ha => ?_⟩
        exact newest_resetCurrent ((h.fits j).2 a ha)
      · simp only [hrows, hwritten]
        exact fun x hx => (id_mem_resetCurrent _ _).mpr (h.stored x hx)
      · simpa only [hwritten] using h.neverBack
  | insert a hcurrent hnewest hinsert hcreated hcreating hheld =>
      obtain ⟨hrows, hwritten⟩ := hview hinsert
      have hnone := (h.fits i).1 hcreated
      constructor
      · simp only [hrows]
        intro b hb hb' c hc
        rcases List.mem_append.mp hb with hold | hnew
        · exact absurd (hnone b hold) (by simp [hb'])
        · rw [List.mem_singleton.mp hnew]
          rcases List.mem_append.mp hc with hold | hnew
          · exact Int.le_of_lt (hnewest c hold)
          · rw [List.mem_singleton.mp hnew]
      · simp only [hrows]
        refine fits_set (fits_of_none hcreating hheld) fun j hj => ?_
        obtain ⟨hother, hnothing⟩ := hunheld hcreated j hj
        exact fits_of_none hother hnothing
      · simp only [hrows, hwritten]
        intro x hx
        obtain ⟨b, hb, hid⟩ := h.stored x hx
        exact ⟨b, List.mem_append_left _ hb, hid⟩
      · simpa only [hwritten] using h.neverBack
  | write a key hin hwrite hcreating hheld =>
      obtain ⟨hrows, hwritten⟩ := hview hwrite
      have hnewest : Newest s.world.addresses.rows a := (h.fits i).2 a hin
      constructor
      · simpa only [hrows] using h.newest
      · simp only [hrows]
        refine fits_set ⟨fun hc => absurd hc hcreating, ?_⟩ fun j _ => h.fits j
        intro b hb
        rw [hheld b hb]
        exact hnewest
      · simp only [hrows, hwritten]
        intro x hx
        rcases List.mem_append.mp hx with hx | hx
        · exact h.stored x hx
        · rw [List.mem_singleton.mp hx]
          exact hnewest.1
      · simp only [hwritten]
        refine List.pairwise_append.mpr
          ⟨h.neverBack, List.pairwise_singleton _ _, ?_⟩
        intro x hx y hy _
        obtain ⟨b, hb, hid⟩ := h.stored x hx
        rw [List.mem_singleton.mp hy, ← hid]
        exact hnewest.2 b hb

/-- **Step lemma.** -/
theorem inv_step (s : State) (l : Label) (s' : State) (h : Inv s)
    (hunheld : Unheld s l) (hstep : refreshes.step s l = some s') :
    Inv s' := by
  cases l with
  | call i e =>
      simp only [refreshes] at hstep
      split at hstep
      · obtain rfl := Option.some.inj hstep
        have hfits : Fits s.world.addresses.rows e.pc := by
          cases e with
          | _ => exact fits_of_none (Pc.not_creating rfl) rfl
        exact ⟨h.newest, fits_set hfits fun j _ => h.fits j, h.stored,
          h.neverBack⟩
      · cases hstep
  | next i env o =>
      simp only [refreshes] at hstep
      rcases hrun : (s.threads i).next env o ⟨s.world, 0⟩ with ⟨err | pc, t⟩
      · rw [hrun] at hstep
        cases hstep
      · rw [hrun] at hstep
        obtain rfl := Option.some.inj hstep
        exact inv_effect h hunheld (next_effect env (s.threads i) pc t hrun)
  | others c =>
      obtain rfl := Option.some.inj hstep
      exact ⟨h.newest, h.fits, h.stored, h.neverBack⟩

/-- **No stale overwrite.**  From a freshly migrated database and any zones, in
every run of any calls in which an address is inserted only while no other call
is about to insert one or has one in hand, the ids of the addresses written to
a record set never decrease. -/
theorem writes_never_go_back (zones : Zones) (ls : List Label) (s : State)
    (hrun : refreshes.run (start (World.init zones)) ls = some s)
    (hunheld : refreshes.Along Unheld (start (World.init zones)) ls) :
    NeverBack (written s.world) :=
  (Machine.invariant_along inv_step ls _ s (inv_start zones) hunheld
    hrun).neverBack

/-! ### A pass that is overtaken -/

/-- The resolvers agree on this IPv4. -/
private def resolving (ipv4 : GoString) : Env :=
  { Env.sample with consensus4 := (ipv4, none) }

private def www : Record :=
  ⟨1, "t", 7, "example.org", "www", 60, none, purposeDDNS, false, none⟩

/-- Every record set holds another address. -/
private def outdated : Zones := fun _ _ => some ⟨60, ["198.51.100.7"]⟩

/-- One DDNS record. -/
private def withRecord : Label :=
  .others
    { records := Table.empty.insert fun id => { www with id := id }
      certificates := .empty
      tasks := .empty
      taskRuns := .empty
      zones := outdated
      pending := fun _ => false }

/-- The next `n` statements of call `i`, none of which fails. -/
private def statements (n i : Nat) (ipv4 : GoString) : List Label :=
  List.replicate n (.next i (resolving ipv4) .quiet)

/-- Two passes one after the other: resolve, scan, reset, insert, read back,
list, and the three requests for the record, and the end. -/
private def following : List Label :=
  withRecord :: .call 0 .refresh :: statements 11 0 "203.0.113.1" ++
    .call 1 .refresh :: statements 11 1 "203.0.113.2"

/-- The first pass has looked the record set up; before it writes, a pass with
another address runs from start to end. -/
private def overtaken : List Label :=
  withRecord :: .call 0 .refresh :: statements 8 0 "203.0.113.1" ++
    .call 1 .refresh :: statements 11 1 "203.0.113.2" ++
    statements 3 0 "203.0.113.1"

private def nowhere : State := start (World.init outdated)

/-- Only calls 0 and 1 move. -/
private def Label.ofTwo : Label → Bool
  | .call i _ => i < 2
  | .next i _ _ => i < 2
  | .others _ => true

private theorem others_idle (s : State) (l : Label) (s' : State)
    (h : ∀ j, 2 ≤ j → s.threads j = .idle) (hl : l.ofTwo = true)
    (hstep : refreshes.step s l = some s') :
    ∀ j, 2 ≤ j → s'.threads j = .idle := by
  have hset : ∀ i pc, i < 2 → ∀ j, 2 ≤ j → s.threads.set i pc j = .idle := by
    intro i pc hi j hj
    rw [Pool.set_ne _ _ (by omega)]
    exact h j hj
  cases l with
  | call i e =>
      simp only [refreshes] at hstep
      split at hstep
      · obtain rfl := Option.some.inj hstep
        exact hset i _ (of_decide_eq_true hl)
      · cases hstep
  | next i env o =>
      simp only [refreshes] at hstep
      split at hstep
      · obtain rfl := Option.some.inj hstep
        exact hset i _ (of_decide_eq_true hl)
      · cases hstep
  | others c =>
      obtain rfl := Option.some.inj hstep
      exact h

private instance (pc : Pc) : Decidable (Pc.Creating pc) :=
  match pc with
  | .create job p => .isTrue ⟨job, p, rfl⟩
  | .idle | .load _ | .resolve _ | .scan _ _ | .reset _ _ | .reread _
  | .list _ | .visit _ _ _ _ | .save _ | .current _ | .compare _ _ _
  | .read _ _ _ | .write _ _ _ _ | .place _ _ _ | .finish _ | .returned _ =>
      .isFalse fun ⟨_, _, h⟩ => Pc.noConfusion h

/-- The condition for calls 0 and 1. -/
private def UnheldByTwo (s : State) : Label → Prop
  | .next i _ _ => Pc.Creating (s.threads i) → ∀ j < 2, j ≠ i →
      ¬Pc.Creating (s.threads j) ∧ (Pc.held (s.threads j)).isNone = true
  | _ => True

private instance (s : State) : (l : Label) → Decidable (UnheldByTwo s l)
  | .call _ _ => .isTrue trivial
  | .next i _ _ => inferInstanceAs (Decidable
      (Pc.Creating (s.threads i) → ∀ j < 2, j ≠ i →
        ¬Pc.Creating (s.threads j) ∧ (Pc.held (s.threads j)).isNone = true))
  | .others _ => .isTrue trivial

/-- Where two calls move, the condition is one for the two of them. -/
private theorem along_unheld {ls : List Label} {w : World}
    (htwo : ∀ l ∈ ls, l.ofTwo = true)
    (hunheld : refreshes.Along UnheldByTwo (start w) ls) :
    refreshes.Along Unheld (start w) ls := by
  have hidle := Machine.along_invariant others_idle ls (start w)
    (fun _ _ => rfl) (refreshes.along_of_mem ls _ fun l hl _ => htwo l hl)
  refine refreshes.along_mono ?_ ls _
    (refreshes.along_and ls _ hidle hunheld)
  rintro s l ⟨⟨hrest, -⟩, hl⟩
  cases l with
  | next i env o =>
      intro hcreating j hj
      by_cases hlt : j < 2
      · obtain ⟨hother, hnone⟩ := hl hcreating j hlt hj
        exact ⟨hother, Option.isNone_iff_eq_none.mp hnone⟩
      · rw [hrest j (by omega)]
        exact ⟨nofun, rfl⟩
  | _ => trivial

theorem writes_never_go_back_following :
    ∃ s, refreshes.run nowhere following = some s ∧
      (written s.world).map Prod.snd = [1, 2] ∧
      NeverBack (written s.world) := by
  have hwritten : (refreshes.run nowhere following).map
      (fun s => (written s.world).map Prod.snd) = some [1, 2] := by
    decide +kernel
  obtain ⟨s, hrun, hids⟩ := Option.map_eq_some_iff.mp hwritten
  refine ⟨s, hrun, hids, writes_never_go_back outdated following s
    hrun ?_⟩
  exact along_unheld (by decide) (by decide +kernel)

/-- The first pass writes the address with id 1 over the one with id 2. -/
theorem overtaken_pass_goes_back :
    ∃ s, refreshes.run nowhere overtaken = some s ∧
      written s.world =
        [((7, GoString.lit "www"), 2), ((7, GoString.lit "www"), 1)] ∧
      ¬NeverBack (written s.world) := by
  have hwritten : (refreshes.run nowhere overtaken).map
      (fun s => written s.world) =
        some [((7, GoString.lit "www"), 2), ((7, GoString.lit "www"), 1)] := by
    decide +kernel
  obtain ⟨s, hrun, hids⟩ := Option.map_eq_some_iff.mp hwritten
  refine ⟨s, hrun, hids, ?_⟩
  rw [hids, NeverBack]
  decide

end Hdns.Ports.StaleWrites

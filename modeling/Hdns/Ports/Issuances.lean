import Hdns.Ports.IssuanceSteps
import Hdns.Verified.Machine

/-!
# Concurrent issuances and saves

A thread of this machine is one call of `StartIssuance`, `IssueCertificate`,
`RenewCertificates` or `UpsertRecord`, together with the background goroutine
that a `StartIssuance` leaves behind.  A step carries out the next statement of
one of them under an environment and an oracle of its own, so that everything
can fail, ACME can be switched on and off, and the calls interleave in any
order.  What other calls of the server do to the database is a step too.

## Main results

* `Move`, `next_moves` — what a statement can do to the slots.
* `Exclusive`, `exclusive_step` — each taken slot belongs to one thread, which
  is between its `LoadOrStore` and its `Delete`.
* `issuances_exclude_each_other` — at most one issuance per record, slots
  released by the call that took them and after its issuance only, and no slot
  left taken when nothing runs.
-/

namespace Hdns.Ports.Issuances

open Hdns.Verified
open Hdns.Verified.GoString
open Hdns.Ports.Schema
open Hdns.Ports.Records
open Hdns.Ports.Certificates
open Hdns.Ports.IssuanceSteps

/-! ## The machine -/

/-- A call and the issuance it has left to a background goroutine. -/
structure Thread where
  main : Pc
  background : Option (Record × Stage)

/-- No call, and nothing left behind by one. -/
def Thread.idle : Thread := ⟨.idle, none⟩

/-- The database and the slots, the calls, and for each taken slot the thread
that stored its key.  No step reads the last. -/
structure State where
  world : World
  threads : Pool Thread
  owner : Int → Option Nat

/-- Before any call. -/
def start (w : World) : State := ⟨w, fun _ => .idle, fun _ => none⟩

/-- The functions a thread can call. -/
inductive Entry where
  | startIssuance (recordID : Int)
  | issueCertificate (recordID : Int)
  | renewCertificates
  | upsertRecord (input : RecordInput)

/-- The first statement of a call. -/
def Entry.pc : Entry → Pc
  | .startIssuance id => .start id .caller
  | .issueCertificate id => .issue id
  | .renewCertificates => .renew
  | .upsertRecord input => .save input

/-- A label: thread `i` starts a call, or carries out its next statement, or
its background goroutine does; or another call of the server changes what is
not a slot. -/
inductive Label where
  | call (i : Nat) (e : Entry)
  | main (i : Nat) (env : Env) (o : Oracle Call)
  | background (i : Nat) (env : Env) (o : Oracle Call)
  | others (w : World)

/-- Thread `i` has become `t` and the world `w`. -/
def State.moved (s : State) (i : Nat) (w : World) (t : Thread) : State where
  world := w
  threads := s.threads.set i t
  owner := fun id =>
    if w.pending id then if s.world.pending id then s.owner id else some i
    else none

theorem moved_self (s : State) (i : Nat) (w : World) (t : Thread) :
    (s.moved i w t).threads i = t := Pool.set_self s.threads i t

theorem moved_ne (s : State) {i j : Nat} (w : World) (t : Thread)
    (h : j ≠ i) : (s.moved i w t).threads j = s.threads j :=
  Pool.set_ne s.threads t h

/-- One statement of a background goroutine. -/
def backgroundNext (env : Env) (record : Record) :
    Stage → Handler (Option (Record × Stage))
  | .ended _ => do
      deletePending record.id
      pure none
  | st => do
      let st ← st.next env record issuanceSourceManual
      pure (some (record, st))

/-- One statement of the main flow of a thread. -/
def Thread.mainStep (env : Env) (t : Thread) : Handler Thread := do
  let (pc, spawned) ← t.main.next env
  match spawned with
  | some record => pure ⟨pc, some (record, .first)⟩
  | none => pure ⟨pc, t.background⟩

/-- One statement of the background goroutine of a thread. -/
def Thread.backgroundStep (env : Env) (t : Thread) : Handler Thread :=
  match t.background with
  | some (record, st) => do
      let background ← backgroundNext env record st
      pure ⟨t.main, background⟩
  | none => Prog.throw .noRows

/-- Carry out one statement of thread `i`; there is no step where it has
none. -/
def State.carryOut (s : State) (i : Nat) (p : Handler Thread)
    (o : Oracle Call) : Option State :=
  match p o ⟨s.world, 0⟩ with
  | (.ok t, sys) => some (s.moved i sys.state t)
  | (.error _, _) => none

/-- The machine of concurrent calls. -/
def issuances : Machine State Label where
  step s
    | .call i e =>
        match (s.threads i).main with
        | .idle => some { s with
            threads := s.threads.set i ⟨e.pc, (s.threads i).background⟩ }
        | _ => none
    | .main i env o => s.carryOut i ((s.threads i).mainStep env) o
    | .background i env o => s.carryOut i ((s.threads i).backgroundStep env) o
    | .others w => some { s with world := { w with pending := s.world.pending } }

/-! ## What a statement does to the slots -/

/-- The slots with the one of `id` taken or free. -/
def withSlot (pending : Int → Bool) (id : Int) (b : Bool) : Int → Bool :=
  fun i => if i = id then b else pending i

@[simp] theorem withSlot_self (pending : Int → Bool) (id : Int) (b : Bool) :
    withSlot pending id b id = b := if_pos rfl

theorem withSlot_ne (pending : Int → Bool) {id i : Int} (b : Bool)
    (h : i ≠ id) : withSlot pending id b i = pending i := if_neg h

theorem withSlot_eq_self {pending : Int → Bool} {id : Int} {b : Bool}
    (h : pending id = b) : withSlot pending id b = pending := by
  funext i
  by_cases hi : i = id
  · rw [hi, withSlot_self, h]
  · rw [withSlot_ne pending b hi]

/-- A world with the slot of `id` taken or free. -/
def setSlot (w : World) (id : Int) (b : Bool) : World :=
  { w with pending := withSlot w.pending id b }

@[simp] theorem setSlot_pending (w : World) (id : Int) (b : Bool) :
    (setSlot w id b).pending = withSlot w.pending id b := rfl

theorem setSlot_eq_self {w : World} {id : Int} {b : Bool}
    (h : w.pending id = b) : setSlot w id b = w :=
  congrArg (fun p => { w with pending := p }) (withSlot_eq_self h)

/-- **What a statement of the main flow does to the slots**, with the record
it hands to the background goroutine. -/
inductive Move (w w' : World) (pc pc' : Pc) : Option Record → Prop where
  | keeps (hw : w'.pending = w.pending) (hslot : pc'.slot = pc.slot) :
      Move w w' pc pc' none
  | takes (id : Int) (hnone : pc.slot = none) (hfree : w.pending id = false)
      (hw : w'.pending = withSlot w.pending id true)
      (hslot : pc'.slot = some id) : Move w w' pc pc' none
  | gives (id : Int) (hslot : pc.slot = some id) (hended : pc.ended = true)
      (hw : w'.pending = withSlot w.pending id false)
      (hnone : pc'.slot = none) : Move w w' pc pc' none
  | hands (record : Record) (hslot : pc.slot = some record.id)
      (hw : w'.pending = w.pending) (hwinding : pc'.winding = true) :
      Move w w' pc pc' (some record)

/-- The statement of `pc`, if there is one, is a move. -/
def Moves (o : Oracle Call) (s : Sys World) (pc : Pc)
    (p : Handler (Pc × Option Record)) : Prop :=
  p.wp o s fun r t => ∀ x, r = .ok x → Move s.state t.state pc x.1 x.2

section Moves

variable {o : Oracle Call} {s : Sys World} {pc : Pc}

theorem moves_throw (err : GoError) :
    Moves o s pc (Prog.throw err) := by
  intro x hx
  cases hx

theorem moves_pure {pc' : Pc} (h : pc'.slot = pc.slot) :
    Moves o s pc (pure (pc', none)) := by
  intro x hx
  cases hx
  exact .keeps rfl h

/-- A statement that leaves the slots alone, and after it a program counter
with the same slot. -/
theorem moves_bind {α : Type} {p : Handler α}
    {f : α → Handler (Pc × Option Record)} (hp : Prog.Keeps o SlotsKept p)
    (hf : ∀ a, ∃ pc', f a = pure (pc', none) ∧ pc'.slot = pc.slot) :
    Moves o s pc (p >>= f) := by
  refine Prog.wp_bind_of (hp s) ?_ ?_
  · intro err t _ x hx
    cases hx
  · intro a t ht
    obtain ⟨pc', hpc', hslot⟩ := hf a
    rw [hpc']
    intro x hx
    cases hx
    exact .keeps ht hslot

/-- `takeSlot` takes the slot when it was free; with ACME enabled it refuses a
certificate record only when it was not. -/
theorem takeSlot_spec (env : Env) (record : Record) :
    (takeSlot env record).wp o s fun r t =>
      match r with
      | .ok () =>
          s.state.pending record.id = false ∧
            t.state = setSlot s.state record.id true
      | .error _ =>
          t.state = s.state ∧
            (recordDoesCert record.purpose = true → env.acmeEnabled = true →
              s.state.pending record.id = true) := by
  rw [takeSlot]
  by_cases hcert : recordDoesCert record.purpose = true
  · rw [if_neg (not_not.mpr hcert)]
    by_cases hacme : env.acmeEnabled = true
    · rw [if_neg (not_not.mpr hacme)]
      cases hslot : s.state.pending record.id with
      | true =>
          simp only [loadOrStore, Prog.wp_bind, Prog.wp_get, Prog.wp_modify,
            Prog.wp_pure, hslot, if_true, Prog.wp_throw]
          exact ⟨setSlot_eq_self hslot, fun _ _ => trivial⟩
      | false =>
          simp only [loadOrStore, Prog.wp_bind, Prog.wp_get, Prog.wp_modify,
            Prog.wp_pure, hslot]
          exact ⟨trivial, rfl⟩
    · rw [if_pos hacme]
      exact ⟨rfl, fun _ h => absurd h hacme⟩
  · rw [if_pos hcert]
    exact ⟨rfl, fun h => absurd h hcert⟩

/-- A caller that takes the slot of a record. -/
theorem moves_takeSlot (env : Env) (record : Record) {taken : Pc}
    {refused : GoError → Pc} (hpc : pc.slot = none)
    (htaken : taken.slot = some record.id)
    (hrefused : ∀ err, (refused err).slot = none) :
    Moves o s pc (do
      match ← (takeSlot env record).attempt with
      | .ok () => pure (taken, none)
      | .error err => pure (refused err, none)) := by
  refine (Prog.wp_bind _ _ _).mpr ((Prog.wp_attempt _ _).mpr
    (Prog.wp_mono (takeSlot_spec env record) ?_))
  rintro (err | ⟨⟩) t ht x hx
  · cases hx
    exact .keeps (congrArg World.pending ht.1) ((hrefused err).trans hpc.symm)
  · cases hx
    exact .takes record.id hpc ht.1 (congrArg World.pending ht.2) htaken

/-- A caller that gives the slot of a record back. -/
theorem moves_deletePending {id : Int} {pc' : Pc} (hslot : pc.slot = some id)
    (hended : pc.ended = true) (hnone : pc'.slot = none) :
    Moves o s pc (do deletePending id; pure (pc', none)) := by
  intro x hx
  cases hx
  exact .gives id hslot hended rfl hnone

end Moves

/-- Every statement of the main flow is one of the four moves. -/
theorem next_moves (env : Env) (o : Oracle Call) (s : Sys World) (pc : Pc) :
    Moves o s pc (pc.next env) := by
  cases pc with
  | idle => exact moves_throw _
  | returned r => exact moves_throw _
  | start id k =>
      refine moves_bind (.attempt (.query SlotsKept.refl)) fun r => ?_
      cases r with
      | ok record => exact ⟨_, rfl, rfl⟩
      | error err => exact ⟨_, rfl, slot_afterPc _ k⟩
  | startReserve record k =>
      exact moves_takeSlot env record rfl rfl fun err => slot_afterPc _ k
  | prepare record e k =>
      refine Prog.wp_bind_of (ensure_slots record e s) ?_ ?_
      · intro err t _ x hx
        cases hx
      · rintro (e' | err | certID) t ht x hx
        · cases hx
          exact .keeps ht rfl
        · cases hx
          exact .keeps ht rfl
        · cases hx
          exact .hands record rfl ht (winding_afterPc _ k)
  | abort record err k =>
      exact moves_deletePending rfl rfl (slot_afterPc _ k)
  | issue id =>
      refine moves_bind (.attempt (.query SlotsKept.refl)) fun r => ?_
      cases r with
      | ok record => exact ⟨_, rfl, rfl⟩
      | error err => exact ⟨_, rfl, rfl⟩
  | reserve record source k =>
      exact moves_takeSlot env record rfl rfl fun err => slot_returnPc _ k
  | issuing record source st k =>
      have hstage := fun st' : Stage =>
        (⟨Pc.issuing record source st' k, rfl, rfl⟩ :
          ∃ pc', (pure (Pc.issuing record source st' k, none) :
            Handler (Pc × Option Record)) = pure (pc', none) ∧
            pc'.slot = some record.id)
      cases st with
      | ended r => exact moves_deletePending rfl rfl (slot_returnPc r k)
      | _ => exact moves_bind (stage_slots env record source _) hstage
  | renew =>
      rw [Pc.next]
      split
      · exact moves_pure rfl
      · refine moves_bind (.attempt (.query SlotsKept.refl)) fun r => ?_
        cases r with
        | ok certs => exact ⟨_, rfl, rfl⟩
        | error err => exact ⟨_, rfl, rfl⟩
  | renewNext rest =>
      cases rest with
      | nil => exact moves_pure rfl
      | cons cert rest =>
          refine moves_bind (.attempt (.query SlotsKept.refl)) fun r => ?_
          cases r with
          | error err => exact ⟨_, rfl, rfl⟩
          | ok record =>
              dsimp only
              split <;> exact ⟨_, rfl, rfl⟩
  | save input =>
      rw [Pc.next]
      split
      · split <;> exact moves_pure rfl
      · exact moves_pure rfl
  | saveToken input =>
      refine moves_bind (.attempt (.query SlotsKept.refl)) fun r => ?_
      cases r with
      | ok existing => exact ⟨_, rfl, rfl⟩
      | error err => exact ⟨_, rfl, rfl⟩
  | saveRow input token =>
      refine moves_bind (.attempt (storeRow_slots env input token))
        fun r => ?_
      cases r with
      | ok id => exact ⟨_, rfl, rfl⟩
      | error err => exact ⟨_, rfl, rfl⟩
  | saveBack id =>
      refine moves_bind (.attempt (.query SlotsKept.refl)) fun r => ?_
      cases r with
      | ok record => exact ⟨_, rfl, rfl⟩
      | error err => exact ⟨_, rfl, rfl⟩
  | saveRefresh record =>
      refine moves_bind (.attempt (slots_of_aside
        (refreshRecord_aside env record))) fun r => ?_
      cases r with
      | ok record => exact ⟨_, rfl, rfl⟩
      | error err => exact ⟨_, rfl, rfl⟩
  | saveIssue record =>
      rw [Pc.next]
      split <;> exact moves_pure rfl
  | answer record =>
      exact moves_bind (.attempt (slots_of_aside (answer_aside record)))
        fun r => ⟨_, rfl, rfl⟩

/-- A call that is winding up touches no slot and spawns nothing. -/
theorem next_winding (env : Env) (o : Oracle Call) (s : Sys World) {pc : Pc}
    (h : pc.winding = true) :
    (pc.next env).wp o s fun r t => ∀ x, r = .ok x →
      Aside s.state t.state ∧ x.1.winding = true ∧ x.2 = none := by
  cases pc with
  | returned r =>
      intro x hx
      cases hx
  | answer record =>
      refine (Prog.wp_bind _ _ _).mpr ((Prog.wp_attempt _ _).mpr
        (Prog.wp_mono (answer_aside record s) ?_))
      intro r t ht x hx
      cases hx
      exact ⟨ht, rfl, rfl⟩
  | _ => cases h

/-! ## Threads and slots -/

/-- The slot a thread holds: its background goroutine's, or its main flow's. -/
def Thread.slot (t : Thread) : Option Int :=
  match t.background with
  | some (record, _) => some record.id
  | none => t.main.slot

/-- Whatever the thread took its slot for has ended. -/
def Thread.ended (t : Thread) : Bool :=
  match t.background with
  | some (_, .ended _) => true
  | some _ => false
  | none => t.main.ended

/-- A call that has left a goroutine behind is winding up. -/
def Thread.Sound (t : Thread) : Prop :=
  ∀ b, t.background = some b → t.main.winding = true

theorem sound_of_none (pc : Pc) : Thread.Sound ⟨pc, none⟩ := by
  intro b hb
  cases hb

theorem sound_of_winding {pc : Pc} (h : pc.winding = true)
    (b : Option (Record × Stage)) : Thread.Sound ⟨pc, b⟩ := fun _ _ => h

/-- **What a statement of a thread does to the slots.** -/
inductive ThreadMove (w w' : World) (t t' : Thread) : Prop where
  | keeps (hw : w'.pending = w.pending) (hslot : t'.slot = t.slot)
  | takes (id : Int) (hnone : t.slot = none) (hfree : w.pending id = false)
      (hw : w'.pending = withSlot w.pending id true)
      (hslot : t'.slot = some id)
  | gives (id : Int) (hslot : t.slot = some id) (hended : t.ended = true)
      (hw : w'.pending = withSlot w.pending id false) (hnone : t'.slot = none)

theorem mainStep_moves (env : Env) (o : Oracle Call) (s : Sys World)
    {t : Thread} (ht : t.Sound) :
    (t.mainStep env).wp o s fun r sys => ∀ t', r = .ok t' →
      ThreadMove s.state sys.state t t' ∧ t'.Sound := by
  obtain ⟨pc, background⟩ := t
  cases background with
  | some b =>
      have hwinding := ht b rfl
      refine Prog.wp_bind_of (next_winding env o s hwinding) ?_ ?_
      · intro err sys _ t' ht'
        cases ht'
      · rintro ⟨pc', spawned⟩ sys hsys t' ht'
        obtain ⟨haside, hpc', rfl⟩ := hsys _ rfl
        obtain rfl : ⟨pc', some b⟩ = t' := Except.ok.inj ht'
        exact ⟨.keeps haside.pending rfl, sound_of_winding hpc' _⟩
  | none =>
      refine Prog.wp_bind_of (next_moves env o s pc) ?_ ?_
      · intro err sys _ t' ht'
        cases ht'
      · rintro ⟨pc', spawned⟩ sys hsys t' ht'
        have hmove := hsys _ rfl
        cases hmove with
        | keeps hw hslot =>
            obtain rfl : ⟨pc', none⟩ = t' := Except.ok.inj ht'
            exact ⟨.keeps hw hslot, sound_of_none pc'⟩
        | takes id hnone hfree hw hslot =>
            obtain rfl : ⟨pc', none⟩ = t' := Except.ok.inj ht'
            exact ⟨.takes id hnone hfree hw hslot, sound_of_none pc'⟩
        | gives id hslot hended hw hnone =>
            obtain rfl : ⟨pc', none⟩ = t' := Except.ok.inj ht'
            exact ⟨.gives id hslot hended hw hnone, sound_of_none pc'⟩
        | hands record hslot hw hwinding =>
            obtain rfl : ⟨pc', some (record, .first)⟩ = t' :=
              Except.ok.inj ht'
            exact ⟨.keeps hw hslot.symm, sound_of_winding hwinding _⟩

/-- A background goroutine gives the slot back when its issuance has returned;
until then the issuance takes its next statement. -/
theorem wp_backgroundStep (env : Env) {o : Oracle Call} {s : Sys World}
    {pc : Pc} {record : Record} {st : Stage} {P : Thread → Sys World → Prop}
    (hended : ∀ r, st = .ended r →
      P ⟨pc, none⟩ ⟨setSlot s.state record.id false, s.clock⟩)
    (hrunning : (st.next env record issuanceSourceManual).wp o s fun r sys =>
      ∀ st', r = .ok st' → P ⟨pc, some (record, st')⟩ sys) :
    (Thread.backgroundStep env ⟨pc, some (record, st)⟩).wp o s fun r sys =>
      ∀ t', r = .ok t' → P t' sys := by
  have hstep : (∀ r, st ≠ .ended r) →
      Thread.backgroundStep env ⟨pc, some (record, st)⟩ = (do
        let st ← st.next env record issuanceSourceManual
        pure ⟨pc, some (record, st)⟩) := by
    intro hne
    cases st with
    | ended r => exact absurd rfl (hne r)
    | _ => exact bind_assoc _ _ _
  by_cases hend : ∃ r, st = .ended r
  · obtain ⟨r, rfl⟩ := hend
    intro t' ht'
    obtain rfl : ⟨pc, none⟩ = t' := Except.ok.inj ht'
    exact hended r rfl
  · rw [hstep fun r h => hend ⟨r, h⟩]
    refine (Prog.wp_bind _ _ _).mpr (Prog.wp_mono hrunning ?_)
    rintro (err | st') sys hnext t' ht'
    · cases ht'
    · obtain rfl : ⟨pc, some (record, st')⟩ = t' := Except.ok.inj ht'
      exact hnext st' rfl

theorem backgroundStep_moves (env : Env) (o : Oracle Call) (s : Sys World)
    {t : Thread} (ht : t.Sound) :
    (t.backgroundStep env).wp o s fun r sys => ∀ t', r = .ok t' →
      ThreadMove s.state sys.state t t' ∧ t'.Sound := by
  obtain ⟨pc, background⟩ := t
  cases background with
  | none =>
      intro t' ht'
      cases ht'
  | some b =>
      obtain ⟨record, st⟩ := b
      have hwinding := ht _ rfl
      refine wp_backgroundStep env ?_ ?_
      · rintro r rfl
        exact ⟨.gives record.id rfl rfl rfl (slot_of_winding hwinding),
          sound_of_none pc⟩
      · refine Prog.wp_mono (stage_slots env record _ st s) ?_
        intro r sys hw st' _
        exact ⟨.keeps hw rfl, sound_of_winding hwinding _⟩

/-! ## The invariant -/

/-- Every taken slot belongs to one thread, the one that holds it. -/
structure Exclusive (s : State) : Prop where
  sound : ∀ i, (s.threads i).Sound
  taken : ∀ id, s.world.pending id = true ↔ ∃ i, s.owner id = some i
  held : ∀ id i, s.owner id = some i ↔ (s.threads i).slot = some id

theorem exclusive_start {w : World} (h : w.pending = fun _ => false) :
    Exclusive (start w) where
  sound := fun i => sound_of_none _
  taken := fun id => by simp [start, h]
  held := fun id i => by simp [start, Thread.slot, Thread.idle, Pc.slot]

/-- A slot that no step has touched keeps its owner. -/
theorem Exclusive.owner_moved {s : State} (h : Exclusive s) {i : Nat}
    {w : World} {t : Thread} {id : Int}
    (hw : w.pending id = s.world.pending id) :
    (s.moved i w t).owner id = s.owner id := by
  simp only [State.moved, hw]
  by_cases hid : s.world.pending id = true
  · rw [if_pos hid, if_pos hid]
  · rw [if_neg hid]
    cases howner : s.owner id with
    | none => rfl
    | some j => exact absurd ((h.taken id).mpr ⟨j, howner⟩) hid

/-- The invariant after thread `i` has moved. -/
theorem Exclusive.moved {s : State} (h : Exclusive s) {i : Nat} {w : World}
    {t : Thread} (hmove : ThreadMove s.world w (s.threads i) t)
    (hsound : t.Sound) : Exclusive (s.moved i w t) := by
  have hsounds : ∀ j, ((s.moved i w t).threads j).Sound :=
    (Pool.forall_set (P := fun _ t => t.Sound) s.threads i t).mpr
      ⟨hsound, fun j _ => h.sound j⟩
  have hself : ((s.moved i w t).threads i).slot = t.slot :=
    congrArg Thread.slot (moved_self s i w t)
  have hothers : ∀ j, j ≠ i →
      ((s.moved i w t).threads j).slot = (s.threads j).slot :=
    fun j hj => congrArg Thread.slot (moved_ne s w t hj)
  have htaken : ∀ id, w.pending id = true ↔
      ∃ j, (s.moved i w t).owner id = some j := by
    intro id
    simp only [State.moved]
    by_cases hw : w.pending id = true
    · simp only [hw, if_true, true_iff]
      by_cases hid : s.world.pending id = true
      · simp only [hid, if_true]
        exact (h.taken id).mp hid
      · exact ⟨i, if_neg hid⟩
    · simp [hw]
  refine ⟨hsounds, htaken, fun id j => ?_⟩
  cases hmove with
  | keeps hw hslot =>
      rw [h.owner_moved (congrFun hw id), h.held id j]
      by_cases hj : j = i
      · rw [hj, hself, hslot]
      · rw [hothers j hj]
  | takes id' hnone hfree hw hslot =>
      by_cases hid : id = id'
      · subst hid
        have howner : (s.moved i w t).owner id = some i := by
          simp [State.moved, hw, hfree]
        rw [howner]
        by_cases hj : j = i
        · rw [hj, hself, hslot]; simp
        · have hslot' : (s.threads j).slot ≠ some id := by
            intro hheld
            have hpending := (h.taken id).mpr ⟨j, (h.held id j).mpr hheld⟩
            rw [hfree] at hpending
            cases hpending
          rw [hothers j hj]
          simp [hslot', Ne.symm hj]
      · rw [h.owner_moved (by rw [hw, withSlot_ne _ _ hid]), h.held id j]
        by_cases hj : j = i
        · rw [hj, hself, hslot, hnone]; simp [Ne.symm hid]
        · rw [hothers j hj]
  | gives id' hslot hended hw hnone =>
      by_cases hid : id = id'
      · subst hid
        have howner : (s.moved i w t).owner id = none := by
          simp [State.moved, hw]
        rw [howner]
        by_cases hj : j = i
        · rw [hj, hself, hnone]; simp
        · have hslot' : (s.threads j).slot ≠ some id := by
            intro hheld
            have hi := (h.held id i).mpr hslot
            rw [(h.held id j).mpr hheld] at hi
            exact hj (Option.some.inj hi)
          rw [hothers j hj]
          simp [hslot']
      · rw [h.owner_moved (by rw [hw, withSlot_ne _ _ hid]), h.held id j]
        by_cases hj : j = i
        · rw [hj, hself, hslot, hnone]; simp [Ne.symm hid]
        · rw [hothers j hj]

/-- The label is a statement of thread `i`. -/
inductive Label.By : Label → Nat → Prop where
  | main (i : Nat) (env : Env) (o : Oracle Call) : By (.main i env o) i
  | background (i : Nat) (env : Env) (o : Oracle Call) :
      By (.background i env o) i

theorem carryOut_eq_some {s s' : State} {i : Nat} {p : Handler Thread}
    {o : Oracle Call} (h : s.carryOut i p o = some s') :
    ∃ t, (p o ⟨s.world, 0⟩).1 = .ok t ∧
      s' = s.moved i (p o ⟨s.world, 0⟩).2.state t := by
  unfold State.carryOut at h
  split at h
  · next t sys hp =>
      refine ⟨t, by rw [hp], ?_⟩
      rw [hp]
      exact (Option.some.inj h).symm
  · cases h

/-- **What a step does**, from a state whose threads are sound: a call starts,
a thread moves, or other calls change what is not a slot. -/
theorem step_cases {s s' : State} {a : Label}
    (hsound : ∀ i, (s.threads i).Sound)
    (h : issuances.step s a = some s') :
    (∃ (i : Nat) (e : Entry), (s.threads i).main = .idle ∧
        s' = { s with
          threads := s.threads.set i ⟨e.pc, (s.threads i).background⟩ }) ∨
      (∃ i w t, a.By i ∧ ThreadMove s.world w (s.threads i) t ∧ t.Sound ∧
        s' = s.moved i w t) ∨
      (∃ w : World,
        s' = { s with world := { w with pending := s.world.pending } }) := by
  cases a with
  | call i e =>
      simp only [issuances] at h
      split at h
      · next hidle => exact .inl ⟨i, e, hidle, (Option.some.inj h).symm⟩
      · cases h
  | main i env o =>
      obtain ⟨t, ht, hs'⟩ := carryOut_eq_some h
      obtain ⟨hmove, hsound'⟩ := mainStep_moves env o ⟨s.world, 0⟩ (hsound i) t
        ht
      exact .inr (.inl ⟨i, _, t, .main i env o, hmove, hsound', hs'⟩)
  | background i env o =>
      obtain ⟨t, ht, hs'⟩ := carryOut_eq_some h
      obtain ⟨hmove, hsound'⟩ := backgroundStep_moves env o ⟨s.world, 0⟩
        (hsound i) t ht
      exact .inr (.inl ⟨i, _, t, .background i env o, hmove, hsound', hs'⟩)
  | others w => exact .inr (.inr ⟨w, (Option.some.inj h).symm⟩)

@[simp] theorem slot_entryPc (e : Entry) : e.pc.slot = none := by
  cases e <;> rfl

/-- A thread that starts a call has left nothing behind. -/
theorem background_of_idle {t : Thread} (h : t.Sound)
    (hidle : t.main = .idle) : t.background = none := by
  cases hb : t.background with
  | none => rfl
  | some b =>
      have hwinding := h b hb
      rw [hidle] at hwinding
      cases hwinding

/-- **Step lemma.** -/
theorem exclusive_step (s : State) (a : Label) (s' : State)
    (h : Exclusive s) (hstep : issuances.step s a = some s') :
    Exclusive s' := by
  rcases step_cases h.sound hstep
    with ⟨i, e, hidle, rfl⟩ | ⟨i, w, t, _, hmove, hsound, rfl⟩ | ⟨w, rfl⟩
  · have hnone := background_of_idle (h.sound i) hidle
    have hslot : ∀ j, (s.threads.set i ⟨e.pc, (s.threads i).background⟩ j).slot
        = (s.threads j).slot := by
      intro j
      by_cases hj : j = i
      · rw [hj, Pool.set_self, Thread.slot, Thread.slot, hnone, hidle]
        exact slot_entryPc e
      · rw [Pool.set_ne _ _ hj]
    refine ⟨?_, h.taken, fun id j => ?_⟩
    · refine (Pool.forall_set (P := fun _ (t : Thread) => t.Sound) _ _ _).mpr
        ⟨?_, fun j _ => h.sound j⟩
      rw [hnone]
      exact sound_of_none _
    · rw [h.held id j, hslot j]
  · exact h.moved hmove hsound
  · exact ⟨h.sound, h.taken, h.held⟩

/-! ## The main result -/

/-- The records whose `runIssuance` a thread is in. -/
def Thread.running (t : Thread) : List Int :=
  t.main.running.toList ++
    match t.background with
    | some (_, .ended _) => []
    | some (record, _) => [record.id]
    | none => []

/-- No call and no background issuance is running. -/
def State.Quiescent (s : State) : Prop :=
  ∀ i, (s.threads i).background = none ∧
    ((s.threads i).main = .idle ∨ ∃ r, (s.threads i).main = .returned r)

/-- How the slot of a record may change in one step: it is taken by a thread,
which then owns it, and released by its owner, once what it was taken for has
ended. -/
structure SlotStep (s : State) (a : Label) (s' : State) (id : Int) : Prop where
  taken : s.world.pending id = false → s'.world.pending id = true →
    ∃ i, a.By i ∧ s'.owner id = some i
  kept : s.world.pending id = true → s'.world.pending id = true →
    s'.owner id = s.owner id
  released : s.world.pending id = true → s'.world.pending id = false →
    ∃ i, a.By i ∧ s.owner id = some i ∧ (s.threads i).slot = some id ∧
      (s.threads i).ended = true

/-- An issuance runs in a thread that holds its slot, and a thread runs at
most one. -/
theorem running_of_sound {t : Thread} (h : t.Sound) :
    t.running = [] ∨ ∃ id, t.running = [id] ∧ t.slot = some id ∧
      t.ended = false := by
  obtain ⟨pc, background⟩ := t
  cases background with
  | some b =>
      obtain ⟨record, st⟩ := b
      have hmain : pc.running = none := by
        have hwinding := h _ rfl
        cases pc <;> first | rfl | cases hwinding
      cases st with
      | ended r => exact .inl (by simp [Thread.running, hmain])
      | _ => exact .inr ⟨record.id, by simp [Thread.running, hmain], rfl, rfl⟩
  | none =>
      cases pc with
      | issuing record source st k =>
          cases st with
          | ended r => exact .inl rfl
          | _ => exact .inr ⟨record.id, rfl, rfl, rfl⟩
      | _ => exact .inl rfl

theorem Exclusive.slotStep {s s' : State} {a : Label} (h : Exclusive s)
    (hstep : issuances.step s a = some s') (id : Int) : SlotStep s a s' id := by
  rcases step_cases h.sound hstep
    with ⟨i, e, hidle, rfl⟩ | ⟨i, w, t, hby, hmove, hsound, rfl⟩ | ⟨w, rfl⟩
  · exact ⟨fun h₀ h₁ => absurd (h₀.symm.trans h₁) (by decide), fun _ _ => rfl,
      fun h₀ h₁ => absurd (h₀.symm.trans h₁) (by decide)⟩
  · refine ⟨fun h₀ h₁ => ⟨i, hby, ?_⟩, fun h₀ h₁ => ?_, fun h₀ h₁ => ?_⟩
    · have h₁' : w.pending id = true := h₁
      simp [State.moved, h₀, h₁']
    · exact h.owner_moved (Eq.trans h₁ h₀.symm)
    · have h₁' : w.pending id = false := h₁
      cases hmove with
      | keeps hw hslot =>
          rw [hw, h₀] at h₁'
          cases h₁'
      | takes id' hnone hfree hw hslot =>
          rw [hw] at h₁'
          by_cases hid : id = id'
          · rw [hid, withSlot_self] at h₁'
            cases h₁'
          · rw [withSlot_ne _ _ hid, h₀] at h₁'
            cases h₁'
      | gives id' hslot hended hw hnone =>
          by_cases hid : id = id'
          · subst hid
            exact ⟨i, hby, (h.held id i).mpr hslot, hslot, hended⟩
          · rw [hw, withSlot_ne _ _ hid, h₀] at h₁'
            cases h₁'
  · exact ⟨fun h₀ h₁ => absurd (h₀.symm.trans h₁) (by decide), fun _ _ => rfl,
      fun h₀ h₁ => absurd (h₀.symm.trans h₁) (by decide)⟩

/-- No slot is left taken when nothing runs. -/
theorem Exclusive.free {s : State} (h : Exclusive s) (hquiet : s.Quiescent) :
    s.world.pending = fun _ => false := by
  funext id
  by_contra hne
  obtain ⟨i, hi⟩ := (h.taken id).mp (by simpa using hne)
  have hslot := (h.held id i).mp hi
  obtain ⟨hnone, hmain⟩ := hquiet i
  rw [Thread.slot, hnone] at hslot
  rcases hmain with hmain | ⟨r, hmain⟩
  · rw [hmain] at hslot
    cases hslot
  · rw [hmain] at hslot
    cases hslot

/-- **Exclusion without leaks.**  In every run of any number of calls, at most
one issuance per record is running, a slot is released only by the thread that
took it and only once what it was taken for has ended, and no slot is left
taken when nothing runs. -/
theorem issuances_exclude_each_other (w : World) (as : List Label) (s : State)
    (hfree : w.pending = fun _ => false)
    (hrun : issuances.run (start w) as = some s) :
    (∀ id i j, id ∈ (s.threads i).running → id ∈ (s.threads j).running →
        i = j) ∧
      (∀ i, (s.threads i).running.length ≤ 1) ∧
      (∀ a s', issuances.step s a = some s' → ∀ id, SlotStep s a s' id) ∧
      (s.Quiescent → s.world.pending = fun _ => false) := by
  have h : Exclusive s := Machine.invariant exclusive_step as (start w) s
    (exclusive_start hfree) hrun
  have howner : ∀ id i, id ∈ (s.threads i).running → s.owner id = some i := by
    intro id i hid
    rcases running_of_sound (h.sound i) with hnil | ⟨id', hrunning, hslot, _⟩
    · rw [hnil] at hid
      cases hid
    · rw [hrunning, List.mem_singleton] at hid
      exact (h.held id i).mpr (hid ▸ hslot)
  refine ⟨fun id i j hi hj => ?_, fun i => ?_, fun a s' hstep id =>
    h.slotStep hstep id, h.free⟩
  · exact Option.some.inj ((howner id i hi).symm.trans (howner id j hj))
  · rcases running_of_sound (h.sound i) with hnil | ⟨id, hrunning, _⟩
    · simp [hnil]
    · simp [hrunning]

private def certRecord : Record :=
  ⟨1, "token", 7, "example.org", "www", 60, none, purposeCert, false, none⟩

/-- A database with one certificate record. -/
private def oneRecord : World :=
  { World.init fun _ _ => none with
    records := Table.empty.insert fun id => { certRecord with id := id } }

private def acmeOn : Env := { Env.sample with acmeEnabled := true }

/-- A `StartIssuance` up to its background goroutine, and an
`IssueCertificate` for the same record. -/
private def overlapping : List Label :=
  [.call 0 (.startIssuance 1), .call 1 (.issueCertificate 1),
    .main 0 acmeOn .quiet, .main 1 acmeOn .quiet, .main 0 acmeOn .quiet,
    .main 1 acmeOn .quiet, .main 0 acmeOn .quiet, .main 0 acmeOn .quiet,
    .background 0 acmeOn .quiet]

theorem issuances_exclude_each_other_overlapping :
    ∃ s, issuances.run (start oneRecord) overlapping = some s ∧
      (s.threads 0).running = [1] ∧
      ∀ i, 1 ∈ (s.threads i).running → i = 0 := by
  refine ⟨_, rfl, rfl, fun i hi => ?_⟩
  exact (issuances_exclude_each_other oneRecord overlapping _ rfl rfl).1 1 i 0
    hi (List.mem_singleton.mpr rfl)

end Hdns.Ports.Issuances

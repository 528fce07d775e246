import Hdns.Ports.UpdateAddress
import Hdns.Verified.Machine

/-!
# Concurrent calls of `UpdateAddress`

The callback of `UpdateAddress` issues up to four statements, each committed by
itself, and nothing keeps two calls from interleaving them: the cron job, the
API's `RefreshAddress` and the API's `RefreshRecord` all reach it.  A thread of
this machine is one call; its program counter is the statement it issues next.

## Main results

* `solo_run` — a thread that runs alone does what `saveAddress` does.
* `Serial` — a call inserts its row only when no other call sits between its
  reset and its insert.
* `keepsOne_step`, `concurrent_updates_keep_one_current` — under that
  condition there is at most one current row in every state reached, and
  exactly one once all calls have returned without error.

The reset exists to keep one row current, and the condition is what it takes
for that: two calls that have both passed their reset both insert.
-/

namespace Hdns.Ports.UpdateAddressRace

open Hdns.Verified
open Hdns.Ports.Schema
open Hdns.Ports.UpdateAddress

/-- Where a call stands: the statement it issues next, with the pair it
resolved. -/
inductive Pc where
  | idle
  /-- Before the first `GetCurrentAddress`. -/
  | scan (p : Pair)
  /-- Before `ResetCurrentAddresses`. -/
  | reset (p : Pair)
  /-- Before `CreateAddress`. -/
  | create (p : Pair)
  /-- Before the second `GetCurrentAddress`. -/
  | reread (p : Pair)
  | returned (r : Except GoError Address)

/-- The shared table and the calls. -/
structure State where
  table : Table Address
  threads : Pool Pc

/-- Before any call. -/
def start (t : Table Address) : State := ⟨t, fun _ => .idle⟩

/-- A label: thread `i` starts a call whose resolvers agree on `p`, or issues
its next statement, with what the database does to it and which of several
current rows a scan meets first. -/
inductive Label where
  | call (i : Nat) (p : Pair)
  | statement (i : Nat) (fault : Fault) (pick : Nat)

/-- The rows with `current = TRUE`. -/
def currentRows (t : Table Address) : List Address :=
  t.rows.filter (·.current)

/-- `SELECT … WHERE current = TRUE LIMIT 1` without an order: any current row
may be the one. -/
def scanRow (t : Table Address) (pick : Nat) : Option Address :=
  (currentRows t)[pick % (currentRows t).length]?

/-- What the caller makes of a failed statement. -/
def failed (err : GoError) : Pc := .returned (.error err.wrap)

/-- One statement of a call: the table and the call afterwards. -/
def issue (collate : GoString → GoString) (fault : Fault) (pick : Nat)
    (t : Table Address) : Pc → Option (Table Address × Pc)
  | .idle => none
  | .scan p =>
      match fault with
      | .none =>
          let addr := (scanRow t pick).getD Address.zero
          if addr.ipv4.string = p.ipv4 ∧ addr.ipv6.string = p.ipv6 then
            some (t, .returned (.ok addr))
          else some (t, .reset p)
      | _ => some (t, failed .driver)
  | .reset p =>
      match fault with
      | .none => some (resetCurrent t, .create p)
      | .fails => some (t, failed .driver)
      | .lostReply => some (resetCurrent t, failed .driver)
  | .create p =>
      let ins := insertAddress collate (nullString p.ipv4) (nullString p.ipv6)
        true t
      match fault with
      | .none =>
          match ins.1 with
          | .ok _ => some (ins.2, .reread p)
          | .error err => some (ins.2, failed err)
      | .fails => some (t, failed .driver)
      | .lostReply => some (ins.2, failed .driver)
  | .reread _ =>
      match fault with
      | .none =>
          match scanRow t pick with
          | some addr => some (t, .returned (.ok addr))
          | none => some (t, failed .noRows)
      | _ => some (t, failed .driver)
  | .returned _ => none

/-- The machine of concurrent calls. -/
def race (collate : GoString → GoString) : Machine State Label where
  step s
    | .call i p =>
        match s.threads i with
        | .idle => some ⟨s.table, s.threads.set i (.scan p)⟩
        | _ => none
    | .statement i fault pick =>
        (issue collate fault pick s.table (s.threads i)).map
          fun (t, pc) => ⟨t, s.threads.set i pc⟩

/-! ## What one statement can do -/

/-- An insert adds at most one current row. -/
theorem currentRows_insertAddress (collate : GoString → GoString)
    (ipv4 ipv6 : NullString) (t : Table Address) :
    let ins := insertAddress collate ipv4 ipv6 true t
    (currentRows ins.2 = currentRows t ∧ ∃ err, ins.1 = .error err) ∨
      (currentRows ins.2 = currentRows t ++ [⟨t.next, ipv4, ipv6, true⟩] ∧
        ∃ id, ins.1 = .ok id) := by
  rcases insertAddress_cases collate ipv4 ipv6 true t
    with ⟨err, h⟩ | ⟨_, h⟩ | ⟨_, h⟩
  · rw [h]; exact .inl ⟨rfl, err, rfl⟩
  · rw [h]; exact .inl ⟨rfl, _, rfl⟩
  · rw [h]; exact .inr ⟨by simp [currentRows], _, rfl⟩

/-- **What a step does**: a call starts, or a thread that is not idle issues
its statement, and every other thread stays where it is. -/
theorem race_step_cases {collate : GoString → GoString} {s s' : State}
    {a : Label} (h : (race collate).step s a = some s') :
    (∃ i p, a = .call i p ∧ s.threads i = .idle ∧
        s' = ⟨s.table, s.threads.set i (.scan p)⟩) ∨
      (∃ i fault pick t pc, a = .statement i fault pick ∧
        issue collate fault pick s.table (s.threads i) = some (t, pc) ∧
        s' = ⟨t, s.threads.set i pc⟩) := by
  cases a with
  | call i p =>
      simp only [race] at h
      split at h
      · next hidle => exact .inl ⟨i, p, rfl, hidle, (Option.some.inj h).symm⟩
      · cases h
  | statement i fault pick =>
      simp only [race, Option.map_eq_some_iff] at h
      obtain ⟨⟨t, pc⟩, hissue, rfl⟩ := h
      exact .inr ⟨i, fault, pick, t, pc, rfl, hissue, rfl⟩

/-! ## At most one current row -/

/-- The three effects of a statement on the current rows. -/
theorem issue_currentRows {collate : GoString → GoString} {fault : Fault}
    {pick : Nat} {t t' : Table Address} {pc pc' : Pc}
    (h : issue collate fault pick t pc = some (t', pc')) :
    currentRows t' = [] ∨
      (currentRows t' = currentRows t ∧ ∀ p, pc' ≠ .create p) ∨
      ((∃ p, pc = .create p) ∧ (∃ a, currentRows t' = currentRows t ++ [a]) ∧
        ∀ p, pc' ≠ .create p) := by
  cases pc with
  | idle => cases h
  | returned r => cases h
  | scan p =>
      refine .inr (.inl ?_)
      cases fault with
      | none =>
          simp only [issue] at h
          split at h
          · cases h; exact ⟨rfl, nofun⟩
          · cases h; exact ⟨rfl, nofun⟩
      | fails => cases h; exact ⟨rfl, nofun⟩
      | lostReply => cases h; exact ⟨rfl, nofun⟩
  | reset p =>
      cases fault with
      | none => cases h; exact .inl (filter_current_resetCurrent t)
      | fails => cases h; exact .inr (.inl ⟨rfl, nofun⟩)
      | lostReply => cases h; exact .inl (filter_current_resetCurrent t)
  | create p =>
      have hins := currentRows_insertAddress collate (nullString p.ipv4)
        (nullString p.ipv6) t
      cases fault with
      | none =>
          rcases hins with ⟨hrows, err, herr⟩ | ⟨hrows, id, hid⟩
          · simp only [issue, herr] at h
            cases h
            exact .inr (.inl ⟨hrows, nofun⟩)
          · simp only [issue, hid] at h
            cases h
            exact .inr (.inr ⟨⟨p, rfl⟩, ⟨_, hrows⟩, nofun⟩)
      | fails => cases h; exact .inr (.inl ⟨rfl, nofun⟩)
      | lostReply =>
          cases h
          rcases hins with ⟨hrows, _⟩ | ⟨hrows, _⟩
          · exact .inr (.inl ⟨hrows, nofun⟩)
          · exact .inr (.inr ⟨⟨p, rfl⟩, ⟨_, hrows⟩, nofun⟩)
  | reread p =>
      refine .inr (.inl ?_)
      cases fault with
      | none =>
          simp only [issue] at h
          split at h
          · cases h; exact ⟨rfl, nofun⟩
          · cases h; exact ⟨rfl, nofun⟩
      | fails => cases h; exact ⟨rfl, nofun⟩
      | lostReply => cases h; exact ⟨rfl, nofun⟩

/-- A call issues `CreateAddress` only when no other call is between its
`ResetCurrentAddresses` and its `CreateAddress`. -/
def Serial (s : State) : Label → Prop
  | .call _ _ => True
  | .statement i _ _ =>
      (∃ p, s.threads i = .create p) → ∀ j q, j ≠ i → s.threads j ≠ .create q

/-- At most one row is current, and none while a call is about to insert. -/
structure KeepsOne (s : State) : Prop where
  atMostOne : (currentRows s.table).length ≤ 1
  emptied : ∀ i p, s.threads i = .create p → currentRows s.table = []

theorem keepsOne_start {t : Table Address}
    (h : (currentRows t).length ≤ 1) : KeepsOne (start t) where
  atMostOne := h
  emptied := nofun

/-- **Step lemma.** -/
theorem keepsOne_step {collate : GoString → GoString} (s : State) (a : Label)
    (s' : State) (h : KeepsOne s) (hserial : Serial s a)
    (hstep : (race collate).step s a = some s') : KeepsOne s' := by
  rcases race_step_cases hstep with
    ⟨i, p, rfl, hidle, rfl⟩ | ⟨i, fault, pick, t, pc, rfl, hissue, rfl⟩
  · refine ⟨h.atMostOne, ?_⟩
    intro j q hj
    by_cases hji : j = i
    · subst hji; simp at hj
    · exact h.emptied j q (by simpa [Pool.set_ne _ _ hji] using hj)
  · rcases issue_currentRows hissue with
      hnone | ⟨hsame, hpc⟩ | ⟨hcreate, ⟨a, ha⟩, hpc⟩
    · exact ⟨by simp [hnone], fun _ _ _ => hnone⟩
    · refine ⟨by simpa [hsame] using h.atMostOne, ?_⟩
      intro j q hj
      by_cases hji : j = i
      · subst hji; exact absurd (by simpa using hj) (hpc q)
      · rw [hsame]
        exact h.emptied j q (by simpa [Pool.set_ne _ _ hji] using hj)
    · -- the insert: the row is the only one, and no other call is to insert
      obtain ⟨p, hp⟩ := hcreate
      have hnone := h.emptied i p hp
      refine ⟨by simp [ha, hnone], ?_⟩
      intro j q hj
      by_cases hji : j = i
      · subst hji; exact absurd (by simpa using hj) (hpc q)
      · exact absurd (by simpa [Pool.set_ne _ _ hji] using hj)
          (hserial ⟨p, hp⟩ j q hji)

/-! ## At least one current row once all calls have succeeded -/

/-- The call has inserted its row or found its pair current. -/
def Pc.Saved (pc : Pc) : Prop :=
  (∃ p, pc = .reread p) ∨ ∃ a, pc = .returned (.ok a)

/-- The call has returned an error. -/
def Pc.Failed (pc : Pc) : Prop := ∃ err, pc = .returned (.error err)

/-- The call is about to insert. -/
def Pc.Inserting (pc : Pc) : Prop := ∃ p, pc = .create p

/-- Unless a call failed or is about to insert, a saved call means a current
row. -/
def LeavesOne (s : State) : Prop :=
  (∀ i, ¬(s.threads i).Failed) → (∀ i, ¬(s.threads i).Inserting) →
    (∃ i, (s.threads i).Saved) → currentRows s.table ≠ []

private theorem currentRows_ne_nil {t : Table Address} {pick : Nat}
    {a : Address} (h : scanRow t pick = some a) : currentRows t ≠ [] :=
  List.ne_nil_of_mem (List.mem_of_getElem? h)

/-- Where a statement can lead, as far as `LeavesOne` is concerned. -/
theorem issue_saved {collate : GoString → GoString} {fault : Fault}
    {pick : Nat} {t t' : Table Address} {pc pc' : Pc}
    (h : issue collate fault pick t pc = some (t', pc')) :
    pc'.Failed ∨ pc'.Inserting ∨ currentRows t' ≠ [] ∨
      (t' = t ∧ ¬pc.Failed ∧ ¬pc.Inserting ∧ ¬pc'.Saved) := by
  cases pc with
  | idle => cases h
  | returned r => cases h
  | scan p =>
      cases fault with
      | none =>
          simp only [issue] at h
          split at h
          · next hsame =>
            cases h
            cases hscan : scanRow t pick with
            | some a => exact .inr (.inr (.inl (currentRows_ne_nil hscan)))
            | none =>
                -- the zero struct holds no resolved pair
                rw [hscan] at hsame
                exact absurd ⟨hsame.1.symm, hsame.2.symm⟩ p.resolved
          · cases h
            refine .inr (.inr (.inr ⟨rfl, ?_, ?_, ?_⟩))
            · simp [Pc.Failed]
            · simp [Pc.Inserting]
            · simp [Pc.Saved]
      | fails => cases h; exact .inl ⟨_, rfl⟩
      | lostReply => cases h; exact .inl ⟨_, rfl⟩
  | reset p =>
      cases fault with
      | none => cases h; exact .inr (.inl ⟨p, rfl⟩)
      | fails => cases h; exact .inl ⟨_, rfl⟩
      | lostReply => cases h; exact .inl ⟨_, rfl⟩
  | create p =>
      cases fault with
      | none =>
          rcases currentRows_insertAddress collate (nullString p.ipv4)
            (nullString p.ipv6) t with ⟨_, err, herr⟩ | ⟨hrows, id, hid⟩
          · simp only [issue, herr] at h
            cases h
            exact .inl ⟨_, rfl⟩
          · simp only [issue, hid] at h
            cases h
            exact .inr (.inr (.inl (by simp [hrows])))
      | fails => cases h; exact .inl ⟨_, rfl⟩
      | lostReply => cases h; exact .inl ⟨_, rfl⟩
  | reread p =>
      cases fault with
      | none =>
          simp only [issue] at h
          split at h
          · next hscan =>
            cases h
            exact .inr (.inr (.inl (currentRows_ne_nil hscan)))
          · cases h; exact .inl ⟨_, rfl⟩
      | fails => cases h; exact .inl ⟨_, rfl⟩
      | lostReply => cases h; exact .inl ⟨_, rfl⟩

/-- A move of one thread to a place that is neither failed, inserting nor saved
keeps `LeavesOne` when the table stays. -/
private theorem LeavesOne.move {s : State} {i : Nat} {pc : Pc}
    (h : LeavesOne s) (hfail : ¬(s.threads i).Failed)
    (hins : ¬(s.threads i).Inserting) (hpc : ¬pc.Saved) :
    LeavesOne ⟨s.table, s.threads.set i pc⟩ := by
  intro hnofail hnoins ⟨j, hj⟩
  have hothers : ∀ k, k ≠ i → s.threads.set i pc k = s.threads k :=
    fun k hk => Pool.set_ne _ _ hk
  have hji : j ≠ i := by
    rintro rfl
    exact hpc (by simpa using hj)
  refine h ?_ ?_ ⟨j, by simpa [hothers j hji] using hj⟩
  · intro k
    by_cases hk : k = i
    · exact hk ▸ hfail
    · simpa [hothers k hk] using hnofail k
  · intro k
    by_cases hk : k = i
    · exact hk ▸ hins
    · simpa [hothers k hk] using hnoins k

theorem leavesOne_start (t : Table Address) : LeavesOne (start t) := by
  rintro _ _ ⟨i, hi⟩
  simp [start, Pc.Saved] at hi

/-- **Step lemma**, with no condition on the schedule. -/
theorem leavesOne_step {collate : GoString → GoString} (s : State) (a : Label)
    (s' : State) (h : LeavesOne s)
    (hstep : (race collate).step s a = some s') : LeavesOne s' := by
  rcases race_step_cases hstep with
    ⟨i, p, rfl, hidle, rfl⟩ | ⟨i, fault, pick, t, pc, rfl, hissue, rfl⟩
  · apply h.move
    · simp [hidle, Pc.Failed]
    · simp [hidle, Pc.Inserting]
    · simp [Pc.Saved]
  · rcases issue_saved hissue with hfail | hins | hrow | ⟨rfl, h1, h2, h3⟩
    · exact fun hnofail => absurd (by simpa using hfail) (hnofail i)
    · exact fun _ hnoins => absurd (by simpa using hins) (hnoins i)
    · exact fun _ _ _ => hrow
    · exact h.move h1 h2 h3

/-! ## A call that runs alone -/

theorem scanRow_zero (t : Table Address) : scanRow t 0 = currentAddress t := by
  rw [scanRow, Nat.zero_mod, currentRows, ← List.head?_eq_getElem?,
    List.head?_filter]
  rfl

/-- From the place `pc`, thread `i` running alone ends as `prog` does under
every oracle: with its result and its table. -/
def Follows (collate : GoString → GoString) (i : Nat) (pc : Pc)
    (prog : Handler Address) : Prop :=
  ∀ (o : Oracle Call) (s : Sys World) (ts : Pool Pc), ts i = pc →
    ∃ as s', (race collate).run ⟨s.state.addresses, ts⟩ as = some s' ∧
      s'.threads i = .returned (prog o s).1 ∧
      s'.table = (prog o s).2.state.addresses

/-- A place issues the statement that a program begins with, and goes where
the rest of the program is followed. -/
private theorem Follows.call {collate : GoString → GoString} {i : Nat}
    {pc : Pc} {α : Type} {c : Call} {act : World → Except GoError α × World}
    {k : α → Handler Address} (next : α → Pc)
    (hissue : ∀ fault w, issue collate fault 0 w.addresses pc = some
      (match fault with
        | .none => ((act w).2.addresses,
            match (act w).1 with
            | .ok a => next a
            | .error err => failed err)
        | .fails => (w.addresses, failed .driver)
        | .lostReply => ((act w).2.addresses, failed .driver)))
    (hnext : ∀ a, Follows collate i (next a) (k a)) :
    Follows collate i pc ((Prog.call c .driver act).mapError .wrap >>= k) := by
  intro o s ts hi
  -- the first step, and what is left to show after it
  have hrest : ∀ fault t' pc', issue collate fault 0 s.state.addresses pc =
      some (t', pc') → ∀ P : State → Prop,
      (∃ as s', (race collate).run ⟨t', ts.set i pc'⟩ as = some s' ∧ P s') →
      ∃ as s', (race collate).run ⟨s.state.addresses, ts⟩ as = some s' ∧
        P s' := by
    rintro fault t' pc' h P ⟨as, s', hrun, hP⟩
    refine ⟨.statement i fault 0 :: as, s', ?_, hP⟩
    rw [Machine.run_cons_eq_some]
    exact ⟨_, by simp [race, hi, h], hrun⟩
  simp only [Prog.bind_apply, Prog.mapError, Prog.call]
  cases o s.clock c with
  | fails =>
      refine hrest .fails _ _ (hissue .fails s.state) _ ⟨[], _, rfl, ?_, rfl⟩
      exact Pool.set_self _ _ _
  | lostReply =>
      refine hrest .lostReply _ _ (hissue .lostReply s.state) _
        ⟨[], _, rfl, ?_, rfl⟩
      exact Pool.set_self _ _ _
  | none =>
      have hdone := hissue .none s.state
      cases hact : (act s.state).1 with
      | error err =>
          simp only [hact] at hdone
          refine hrest .none _ _ hdone _ ⟨[], _, rfl, ?_, rfl⟩
          exact Pool.set_self _ _ _
      | ok a =>
          simp only [hact] at hdone
          exact hrest .none _ _ hdone _
            (hnext a o ⟨(act s.state).2, s.clock + 1⟩ _ (Pool.set_self _ _ _))

/-- A call that has returned is at the end of its program. -/
theorem follows_pure (collate : GoString → GoString) (i : Nat) (a : Address) :
    Follows collate i (.returned (.ok a)) (pure a) :=
  fun _ _ _ hi => ⟨[], _, rfl, hi, rfl⟩

/-- The first read, with the zero struct for no row. -/
theorem scanCurrent_eq :
    scanCurrent = (Prog.query .getCurrentAddress .driver fun w =>
      .ok ((currentAddress w.addresses).getD Address.zero)).mapError .wrap := by
  funext o s
  simp only [scanCurrent, Prog.bind_apply, Prog.attempt, getCurrentAddress,
    Prog.query, Prog.call, Prog.mapError]
  cases o s.clock .getCurrentAddress with
  | none => cases currentAddress s.state.addresses <;> rfl
  | fails => rfl
  | lostReply => rfl

theorem follows_reread (collate : GoString → GoString) (i : Nat) (p : Pair) :
    Follows collate i (.reread p) (getCurrentAddress.mapError .wrap) := by
  rw [← Prog.bind_pure_eq (getCurrentAddress.mapError .wrap)]
  refine Follows.call (fun a => .returned (.ok a)) ?_ fun a =>
    follows_pure collate i a
  intro fault w
  cases fault with
  | none =>
      simp only [issue, scanRow_zero]
      cases currentAddress w.addresses <;> rfl
  | fails => rfl
  | lostReply => rfl

theorem follows_replace (env : Env) (i : Nat) (p : Pair) :
    Follows env.collate i (.reset p) (replaceAddress env p.ipv4 p.ipv6) := by
  refine Follows.call (fun _ => .create p) ?_ fun _ => ?_
  · intro fault w
    cases fault <;> rfl
  · refine Follows.call (fun _ => .reread p) ?_ fun _ =>
      follows_reread env.collate i p
    intro fault w
    cases fault with
    | none =>
        simp only [issue]
        cases (insertAddress env.collate (nullString p.ipv4)
          (nullString p.ipv6) true w.addresses).1 <;> rfl
    | fails => rfl
    | lostReply => rfl

/-- The place a call goes to from its first read. -/
private def afterScan (p : Pair) (addr : Address) : Pc :=
  if addr.ipv4.string = p.ipv4 ∧ addr.ipv6.string = p.ipv6 then
    .returned (.ok addr)
  else .reset p

theorem follows_scan (env : Env) (i : Nat) (p : Pair) :
    Follows env.collate i (.scan p) (saveAddress env p.ipv4 p.ipv6) := by
  unfold saveAddress
  rw [scanCurrent_eq]
  refine Follows.call (afterScan p) ?_ fun addr => ?_
  · intro fault w
    cases fault with
    | none =>
        simp only [issue, scanRow_zero, afterScan]
        split
        · rfl
        · rfl
    | fails => rfl
    | lostReply => rfl
  · unfold afterScan
    split
    · exact follows_pure env.collate i addr
    · exact follows_replace env i p

/-- **Refinement.**  A call that runs alone, from any table and under any
pattern of failures, ends with the result and the table of `saveAddress`. -/
theorem solo_run (env : Env) (i : Nat) (p : Pair) (o : Oracle Call)
    (s : Sys World) :
    ∃ as s', (race env.collate).run (start s.state.addresses)
        (.call i p :: as) = some s' ∧
      s'.threads i = .returned (saveAddress env p.ipv4 p.ipv6 o s).1 ∧
      s'.table = (saveAddress env p.ipv4 p.ipv6 o s).2.state.addresses := by
  obtain ⟨as, s', hrun, hresult⟩ :=
    follows_scan env i p o s (Pool.set (fun _ => .idle) i (.scan p))
      (Pool.set_self _ _ _)
  refine ⟨as, s', ?_, hresult⟩
  rw [Machine.run_cons_eq_some]
  exact ⟨_, rfl, hrun⟩

/-! ## The main result -/

/-- All calls that were started have returned without error. -/
def AllReturned (s : State) : Prop :=
  ∀ i, s.threads i = .idle ∨ ∃ a, s.threads i = .returned (.ok a)

/-- **One current address.**  From any table with at most one current row, in
every run whose inserts are serial, at most one row is current; and exactly one
once at least one call was started and all have returned without error. -/
theorem concurrent_updates_keep_one_current (collate : GoString → GoString)
    (t : Table Address) (as : List Label) (s : State)
    (hone : (currentRows t).length ≤ 1)
    (hrun : (race collate).run (start t) as = some s)
    (hserial : (race collate).Along Serial (start t) as) :
    (currentRows s.table).length ≤ 1 ∧
      ((∃ i, s.threads i ≠ .idle) → AllReturned s →
        (currentRows s.table).length = 1) := by
  have hkeeps : KeepsOne s := Machine.invariant_along keepsOne_step as
    (start t) s (keepsOne_start hone) hserial hrun
  have hleaves : LeavesOne s := Machine.invariant leavesOne_step as (start t) s
    (leavesOne_start t) hrun
  refine ⟨hkeeps.atMostOne, ?_⟩
  rintro ⟨i, hi⟩ hall
  have hsome : currentRows s.table ≠ [] := by
    apply hleaves
    · rintro j ⟨err, herr⟩
      rcases hall j with h | ⟨a, h⟩ <;> simp [h] at herr
    · rintro j ⟨p, hp⟩
      rcases hall j with h | ⟨a, h⟩ <;> simp [h] at hp
    · rcases hall i with h | h
      · exact absurd h hi
      · exact ⟨i, .inr h⟩
  have hpos := List.length_pos_iff.mpr hsome
  have hle := hkeeps.atMostOne
  omega

private def pairA : Pair := ⟨"203.0.113.1", [], by decide⟩
private def pairB : Pair := ⟨"203.0.113.2", [], by decide⟩

/-- Two calls, the second one resetting after the first one has inserted. -/
private def serialRun : List Label :=
  [.call 0 pairA, .call 1 pairB, .statement 0 .none 0, .statement 1 .none 0,
    .statement 0 .none 0, .statement 0 .none 0, .statement 0 .none 0,
    .statement 1 .none 0, .statement 1 .none 0, .statement 1 .none 0]

/-- The same two calls, each resetting before the other one inserts. -/
private def racingRun : List Label :=
  [.call 0 pairA, .call 1 pairB, .statement 0 .none 0, .statement 1 .none 0,
    .statement 0 .none 0, .statement 1 .none 0, .statement 0 .none 0,
    .statement 1 .none 0, .statement 0 .none 0, .statement 1 .none 0]

theorem concurrent_updates_keep_one_current_serial :
    ∃ s, (race foldCase).run (start .empty) serialRun = some s ∧
      (currentRows s.table).length ≤ 1 := by
  obtain ⟨s, hrun⟩ := Option.isSome_iff_exists.mp
    (show ((race foldCase).run (start .empty) serialRun).isSome = true by
      decide)
  refine ⟨s, hrun, (concurrent_updates_keep_one_current foldCase .empty
    serialRun s (by decide) hrun ?_).1⟩
  refine ⟨trivial, trivial, ?_, ?_, ?_, ?_, ?_, ?_, ?_, ?_, trivial⟩
  all_goals
    rintro ⟨p, hp⟩ (_ | _ | j) q hj
    all_goals first
      | exact absurd rfl hj
      | nofun

/-- Both calls return without error, and both rows are current. -/
theorem racing_updates_leave_two_current :
    ∃ s, (race foldCase).run (start .empty) racingRun = some s ∧
      AllReturned s ∧ (currentRows s.table).length = 2 := by
  refine ⟨_, rfl, ?_, by decide⟩
  rintro (_ | _ | i)
  · exact .inr ⟨_, rfl⟩
  · exact .inr ⟨_, rfl⟩
  · exact .inl rfl

end Hdns.Ports.UpdateAddressRace

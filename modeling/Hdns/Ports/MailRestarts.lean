import Hdns.Ports.Mail

/-!
# Restarting the mail manager

A change of the configuration starts a goroutine that calls `Restart`, which is
`Stop` and then `Start`, each under the mutex of the package.  The configuration
has a lock of its own, and `Start` reads it three times: a change may come
between any two of its statements, and goroutines of several changes may be under
way at once.

The transport settings are a type of their own here; `enabled` is the field of
that name, and `changed` is what decides whether a change concerns them.

## Main results

* `restart_alone` — a `Restart` that nothing interrupts is that of `Mail`.
* `restarts_converge` — whatever the interleaving, once every change was noticed
  and every goroutine has ended the manager is the one the configuration asks
  for, unless a manager could not be started.
-/

namespace Hdns.Ports.MailRestarts

open Hdns.Verified
open Hdns.Ports.Schema

variable {τ : Type}

/-- `config.Notifications.Enabled`, and `config.Mail`. -/
structure Config (τ : Type) where
  notifications : Bool
  mail : τ
  deriving DecidableEq

/-- What is used of `mail.ClientConfig`: the field `Enabled`, and the method
`Changed`. -/
structure Transport (τ : Type) where
  enabled : τ → Bool
  changed : τ → τ → Bool

/-- `Changed` overlooks no change. -/
def Transport.Lawful (T : Transport τ) : Prop :=
  ∀ a b, T.changed a b = false → a = b

/-- The condition of the callback of `OnChange`. -/
def Transport.restarts (T : Transport τ) (o n : Config τ) : Bool :=
  T.changed o.mail n.mail || o.notifications != n.notifications

/-- The manager that a configuration asks for, by the settings it is made
from. -/
def Transport.wanted (T : Transport τ) (c : Config τ) : Option τ :=
  if c.notifications ∧ T.enabled c.mail then some c.mail else none

/-! ## The machine -/

/-- Where a goroutine stands. -/
inductive Pc (τ : Type) where
  | idle
  /-- Before `Stop`. -/
  | stop
  /-- Before `Start` takes the mutex. -/
  | start
  /-- Before `Notifications.Enabled` is read; this and what follows is under the
  mutex. -/
  | readNotifications
  /-- Before `Mail.Enabled` is read. -/
  | readEnabled
  /-- Before `Mail` is read for the manager. -/
  | readMail
  /-- Before `Manager.Start`. -/
  | run (mail : τ)
  | done
  deriving DecidableEq

/-- The goroutine holds the mutex. -/
def Pc.Holds : Pc τ → Prop
  | .readNotifications | .readEnabled | .readMail | .run _ => True
  | _ => False

/-- The configuration, the changes that `OnChange` has not been called for yet,
the variable `manager`, by the settings it was made from, who holds the mutex,
and the goroutines. -/
structure State (τ : Type) where
  config : Config τ
  pending : List (Config τ × Config τ)
  manager : Option τ
  holder : Option Nat
  threads : Pool (Pc τ)

/-- The program before the first call of `Start`, which is that of thread 0. -/
def init (c : Config τ) : State τ where
  config := c
  pending := []
  manager := none
  holder := none
  threads := Pool.set (fun _ => .idle) 0 .start

/-- A label: the configuration is written; the callback runs for the oldest
change, and the goroutine it may start is thread `i`; a thread carries out its
next statement, `outcome` being what `Manager.Start` returns. -/
inductive Label (τ : Type) where
  | configure (c : Config τ)
  | notice (i : Nat)
  | statement (i : Nat) (outcome : Except GoError Unit)

variable (T : Transport τ)

/-- The next statement of a thread, with the mutex and the manager. -/
def advance (i : Nat) (outcome : Except GoError Unit) (c : Config τ)
    (manager : Option τ) (holder : Option Nat) :
    Pc τ → Option (Option τ × Option Nat × Pc τ)
  | .stop => if holder = none then some (none, none, .start) else none
  | .start =>
      if holder = none then
        if manager.isSome then some (manager, none, .done)
        else some (manager, some i, .readNotifications)
      else none
  | .readNotifications =>
      if c.notifications then some (manager, holder, .readEnabled)
      else some (manager, none, .done)
  | .readEnabled =>
      if T.enabled c.mail then some (manager, holder, .readMail)
      else some (manager, none, .done)
  | .readMail => some (manager, holder, .run c.mail)
  | .run mail =>
      match outcome with
      | .ok () => some (some mail, none, .done)
      | .error _ => some (manager, none, .done)
  | .idle => none
  | .done => none

/-- The machine. -/
def restarting : Machine (State τ) (Label τ) where
  step s
    | .configure c =>
        some { s with config := c, pending := s.pending ++ [(s.config, c)] }
    | .notice i =>
        match s.pending with
        | [] => none
        | (o, n) :: rest =>
            if T.restarts o n then
              match s.threads i with
              | .idle => some { s with
                  pending := rest
                  threads := s.threads.set i .stop }
              | _ => none
            else some { s with pending := rest }
    | .statement i outcome =>
        (advance T i outcome s.config s.manager s.holder
          (s.threads i)).map fun (manager, holder, pc) =>
            { s with
              manager := manager
              holder := holder
              threads := s.threads.set i pc }

/-! ## What a statement does -/

section Steps

variable {T : Transport τ}

/-- **What a statement does** to the manager, the mutex and its thread. -/
inductive Moves (T : Transport τ) (i : Nat) (c : Config τ) (m : Option τ)
    (h : Option Nat) (outcome : Except GoError Unit) :
    Pc τ → Option τ → Option Nat → Pc τ → Prop where
  | stopped (hfree : h = none) : Moves T i c m h outcome .stop none none .start
  | found (hfree : h = none) (hm : m.isSome = true) :
      Moves T i c m h outcome .start m none .done
  | entered (hfree : h = none) (hm : m = none) :
      Moves T i c m h outcome .start m (some i) .readNotifications
  | notifying (hc : c.notifications = true) :
      Moves T i c m h outcome .readNotifications m h .readEnabled
  | muted (hc : c.notifications = false) :
      Moves T i c m h outcome .readNotifications m none .done
  | enabled (hc : T.enabled c.mail = true) :
      Moves T i c m h outcome .readEnabled m h .readMail
  | disabled (hc : T.enabled c.mail = false) :
      Moves T i c m h outcome .readEnabled m none .done
  | made : Moves T i c m h outcome .readMail m h (.run c.mail)
  | started (mail : τ) :
      Moves T i c m h outcome (.run mail) (some mail) none .done
  | unstarted (mail : τ) (err : GoError) (hfailed : outcome = .error err) :
      Moves T i c m h outcome (.run mail) m none .done

theorem advance_moves {i : Nat} {outcome : Except GoError Unit} {c : Config τ}
    {m m' : Option τ} {h h' : Option Nat} {pc pc' : Pc τ}
    (hstep : advance T i outcome c m h pc = some (m', h', pc')) :
    Moves T i c m h outcome pc m' h' pc' := by
  cases pc with
  | idle => cases hstep
  | done => cases hstep
  | stop =>
      simp only [advance] at hstep
      split at hstep
      · next hfree => cases hstep; exact .stopped hfree
      · cases hstep
  | start =>
      simp only [advance] at hstep
      split at hstep
      · next hfree =>
        split at hstep
        · next hm => cases hstep; exact .found hfree hm
        · next hm =>
          cases hstep
          exact .entered hfree (by simpa using hm)
      · cases hstep
  | readNotifications =>
      simp only [advance] at hstep
      split at hstep
      · next hc => cases hstep; exact .notifying hc
      · next hc => cases hstep; exact .muted (by simpa using hc)
  | readEnabled =>
      simp only [advance] at hstep
      split at hstep
      · next hc => cases hstep; exact .enabled hc
      · next hc => cases hstep; exact .disabled (by simpa using hc)
  | readMail => cases hstep; exact .made
  | run mail =>
      cases outcome with
      | ok u => cases hstep; exact .started mail
      | error err => cases hstep; exact .unstarted mail err rfl

/-- **What a step does.** -/
theorem step_cases {s s' : State τ} {a : Label τ}
    (h : (restarting T).step s a = some s') :
    (∃ c, a = .configure c ∧
        s' = { s with config := c, pending := s.pending ++ [(s.config, c)] }) ∨
      (∃ i o n rest, a = .notice i ∧ s.pending = (o, n) :: rest ∧
        (T.restarts o n = true ∧ s.threads i = .idle ∧
            s' = { s with
              pending := rest
              threads := s.threads.set i .stop } ∨
          T.restarts o n = false ∧ s' = { s with pending := rest })) ∨
      (∃ i outcome m h pc, a = .statement i outcome ∧
        Moves T i s.config s.manager s.holder outcome (s.threads i) m h pc ∧
        s' = { s with
          manager := m
          holder := h
          threads := s.threads.set i pc }) := by
  cases a with
  | configure c => exact .inl ⟨c, rfl, (Option.some.inj h).symm⟩
  | notice i =>
      refine .inr (.inl ?_)
      simp only [restarting] at h
      split at h
      · cases h
      · next o n rest hpending =>
        refine ⟨i, o, n, rest, rfl, hpending, ?_⟩
        split at h
        · next hrestarts =>
          split at h
          · next hidle =>
            exact .inl ⟨hrestarts, hidle, (Option.some.inj h).symm⟩
          · cases h
        · next hrestarts =>
          exact .inr ⟨by simpa using hrestarts, (Option.some.inj h).symm⟩
  | statement i outcome =>
      refine .inr (.inr ?_)
      simp only [restarting, Option.map_eq_some_iff] at h
      obtain ⟨⟨m, h', pc⟩, hadvance, rfl⟩ := h
      exact ⟨i, outcome, m, h', pc, rfl, advance_moves hadvance, rfl⟩

/-! ## The mutex -/

/-- The thread between its lock and its unlock is the holder. -/
def Locked (s : State τ) : Prop :=
  ∀ i, (s.threads i).Holds ↔ s.holder = some i

theorem locked_init (c : Config τ) : Locked (init c) := by
  intro i
  by_cases hi : i = 0
  · simp [init, hi, Pc.Holds]
  · simp [init, Pool.set_ne _ _ hi, Pc.Holds]

/-- A thread that has moved, with the mutex. -/
private theorem Locked.set {s : State τ} {i : Nat} {pc : Pc τ} {m : Option τ}
    {h : Option Nat} (hself : pc.Holds ↔ h = some i)
    (hothers : ∀ j, j ≠ i → ((s.threads j).Holds ↔ h = some j)) :
    Locked { s with
      manager := m
      holder := h
      threads := s.threads.set i pc } := by
  intro j
  by_cases hj : j = i
  · simpa [hj] using hself
  · simpa [Pool.set_ne _ _ hj] using hothers j hj

theorem locked_step (s : State τ) (a : Label τ) (s' : State τ) (h : Locked s)
    (hstep : (restarting T).step s a = some s') : Locked s' := by
  rcases step_cases hstep with ⟨c, -, rfl⟩ |
    ⟨i, o, n, rest, -, -, ⟨-, hidle, rfl⟩ | ⟨-, rfl⟩⟩ |
    ⟨i, outcome, m, h', pc, -, hmoves, rfl⟩
  · exact h
  · refine Locked.set (m := s.manager) (h := s.holder) ?_ fun j _ => h j
    have hnot := h i
    rw [hidle] at hnot
    exact hnot
  · exact h
  · have hself := h i
    have hothers : ∀ j, j ≠ i → ((s.threads j).Holds ↔ s.holder = some j) :=
      fun j _ => h j
    -- a thread that lets the mutex go was the only one that held it
    have hreleased : s.holder = some i → ∀ j, j ≠ i →
        ((s.threads j).Holds ↔ (none : Option Nat) = some j) := by
      intro hi j hj
      rw [h j, hi]
      simp [Ne.symm hj]
    generalize s.threads i = old at hmoves hself
    cases hmoves with
    | stopped hfree =>
        exact Locked.set (by simp [Pc.Holds]) (hfree ▸ hothers)
    | found hfree hm =>
        exact Locked.set (by simp [Pc.Holds]) (hfree ▸ hothers)
    | entered hfree hm =>
        refine Locked.set (by simp [Pc.Holds]) fun j hj => ?_
        rw [hothers j hj, hfree]
        simp [Ne.symm hj]
    | notifying hc => exact Locked.set (by simpa [Pc.Holds] using hself) hothers
    | muted hc =>
        exact Locked.set (by simp [Pc.Holds])
          (hreleased (by simpa [Pc.Holds] using hself))
    | enabled hc => exact Locked.set (by simpa [Pc.Holds] using hself) hothers
    | disabled hc =>
        exact Locked.set (by simp [Pc.Holds])
          (hreleased (by simpa [Pc.Holds] using hself))
    | made => exact Locked.set (by simpa [Pc.Holds] using hself) hothers
    | started mail =>
        exact Locked.set (by simp [Pc.Holds])
          (hreleased (by simpa [Pc.Holds] using hself))
    | unstarted mail err _ =>
        exact Locked.set (by simp [Pc.Holds])
          (hreleased (by simpa [Pc.Holds] using hself))

/-! ## What the goroutines owe -/

/-- A thread that is in `Start`, or about to be. -/
def Pc.Starts (pc : Pc τ) : Prop := pc = .start ∨ pc.Holds

/-- The manager is up to date, and so is whatever a thread in `Start` has read;
a manager that is wanted and missing is somebody's job. -/
structure Fresh (T : Transport τ) (s : State τ) : Prop where
  made : ∀ m, s.manager = some m → T.wanted s.config = some m
  notified : ∀ i, s.threads i = .readEnabled → s.config.notifications = true
  enabled : ∀ i, s.threads i = .readMail →
    T.wanted s.config = some s.config.mail
  running : ∀ i mail, s.threads i = .run mail → T.wanted s.config = some mail
  owed : s.manager = none → T.wanted s.config ≠ none →
    ∃ i, (s.threads i).Starts

/-- A change that matters has not been noticed, or its `Restart` has not stopped
the manager yet, or all is up to date. -/
def Settles (T : Transport τ) (s : State τ) : Prop :=
  (∃ p ∈ s.pending, T.restarts p.1 p.2 = true) ∨
    (∃ i, s.threads i = .stop) ∨ Fresh T s

/-- Every manager that is made can be started. -/
def Startable (s : State τ) : Label τ → Prop
  | .statement i outcome =>
      ∀ mail, s.threads i = .run mail → outcome = .ok ()
  | _ => True

theorem restarts_eq_false (hT : T.Lawful) {o n : Config τ}
    (h : T.restarts o n = false) : n = o := by
  simp only [Transport.restarts, Bool.or_eq_false_iff] at h
  obtain ⟨hmail, hnotifications⟩ := h
  have hsame : o.mail = n.mail := hT _ _ hmail
  simp only [bne_eq_false_iff_eq] at hnotifications
  cases o
  cases n
  simp_all

theorem wanted_of_muted {c : Config τ} (h : c.notifications = false) :
    T.wanted c = none := by
  simp [Transport.wanted, h]

theorem wanted_of_disabled {c : Config τ} (h : T.enabled c.mail = false) :
    T.wanted c = none := by
  simp [Transport.wanted, h]

theorem wanted_of_enabled {c : Config τ} (h : c.notifications = true)
    (h' : T.enabled c.mail = true) : T.wanted c = some c.mail := by
  simp [Transport.wanted, h, h']

theorem fresh_init (c : Config τ) : Fresh T (init c) where
  made := by
    intro m hm
    cases hm
  notified := by
    intro i hi
    by_cases h0 : i = 0
    · simp [init, h0] at hi
    · simp [init, Pool.set_ne _ _ h0] at hi
  enabled := by
    intro i hi
    by_cases h0 : i = 0
    · simp [init, h0] at hi
    · simp [init, Pool.set_ne _ _ h0] at hi
  running := by
    intro i mail hi
    by_cases h0 : i = 0
    · simp [init, h0] at hi
    · simp [init, Pool.set_ne _ _ h0] at hi
  owed := fun _ _ => ⟨0, .inl (by simp [init])⟩

/-- A thread that has moved leaves everything up to date if what it has read and
done is. -/
theorem Fresh.set {s : State τ} {i : Nat} {pc : Pc τ} {m : Option τ}
    {h : Option Nat} (hs : Fresh T s)
    (hmade : ∀ mail, m = some mail → T.wanted s.config = some mail)
    (hnotified : pc = .readEnabled → s.config.notifications = true)
    (henabled : pc = .readMail → T.wanted s.config = some s.config.mail)
    (hrunning : ∀ mail, pc = .run mail → T.wanted s.config = some mail)
    (howed : m = none → T.wanted s.config ≠ none → pc.Starts) :
    Fresh T { s with
      manager := m
      holder := h
      threads := s.threads.set i pc } where
  made := hmade
  notified := by
    intro j hj
    by_cases hji : j = i
    · exact hnotified (by simpa [hji] using hj)
    · exact hs.notified j (by simpa [Pool.set_ne _ _ hji] using hj)
  enabled := by
    intro j hj
    by_cases hji : j = i
    · exact henabled (by simpa [hji] using hj)
    · exact hs.enabled j (by simpa [Pool.set_ne _ _ hji] using hj)
  running := by
    intro j mail hj
    by_cases hji : j = i
    · exact hrunning mail (by simpa [hji] using hj)
    · exact hs.running j mail (by simpa [Pool.set_ne _ _ hji] using hj)
  owed := fun hm hwanted => ⟨i, by simpa using howed hm hwanted⟩

/-- After `Stop` all is up to date: nobody has read anything, and the thread goes
on with `Start`. -/
theorem fresh_stopped {s : State τ} {i : Nat} (hlocked : Locked s)
    (hfree : s.holder = none) :
    Fresh T { s with
      manager := none
      holder := none
      threads := s.threads.set i .start } := by
  have hnone : ∀ j, ¬(s.threads j).Holds := by
    intro j hj
    rw [hlocked j, hfree] at hj
    cases hj
  have hpc : ∀ j pc, pc.Holds → s.threads.set i Pc.start j ≠ pc := by
    intro j pc hpc heq
    by_cases hji : j = i
    · simp only [hji, Pool.set_self] at heq
      rw [← heq] at hpc
      exact hpc
    · rw [Pool.set_ne _ _ hji] at heq
      exact hnone j (heq ▸ hpc)
  exact
    { made := fun m hm => by cases hm
      notified := fun j hj => absurd hj (hpc j _ trivial)
      enabled := fun j hj => absurd hj (hpc j _ trivial)
      running := fun j mail hj => absurd hj (hpc j _ trivial)
      owed := fun _ _ => ⟨i, .inl (by simp)⟩ }

/-- A statement of a thread while all is up to date. -/
theorem Fresh.moves {s : State τ} {i : Nat} {outcome : Except GoError Unit}
    {m : Option τ} {h : Option Nat} {pc : Pc τ} (hs : Fresh T s)
    (hlocked : Locked s)
    (hstartable : ∀ mail, s.threads i = .run mail → outcome = .ok ())
    (hmoves : Moves T i s.config s.manager s.holder outcome (s.threads i) m h
      pc) :
    Fresh T { s with
      manager := m
      holder := h
      threads := s.threads.set i pc } := by
  generalize hold : s.threads i = old at hmoves hstartable
  cases hmoves with
  | stopped hfree => exact fresh_stopped hlocked hfree
  | found hfree hm =>
      refine hs.set hs.made (by simp) (by simp) (by simp) fun hnone => ?_
      simp [hnone] at hm
  | entered hfree hm =>
      exact hs.set hs.made (by simp) (by simp) (by simp) fun _ _ =>
        .inr trivial
  | notifying hc =>
      exact hs.set hs.made (fun _ => hc) (by simp) (by simp) fun _ _ =>
        .inr trivial
  | muted hc =>
      exact hs.set hs.made (by simp) (by simp) (by simp) fun _ hwanted =>
        absurd (wanted_of_muted hc) hwanted
  | enabled hc =>
      exact hs.set hs.made (by simp)
        (fun _ => wanted_of_enabled (hs.notified i hold) hc) (by simp)
        fun _ _ => .inr trivial
  | disabled hc =>
      exact hs.set hs.made (by simp) (by simp) (by simp) fun _ hwanted =>
        absurd (wanted_of_disabled hc) hwanted
  | made =>
      refine hs.set hs.made (by simp) (by simp) ?_ fun _ _ => .inr trivial
      intro mail hmail
      rw [← Pc.run.inj hmail]
      exact hs.enabled i hold
  | started mail =>
      refine hs.set ?_ (by simp) (by simp) (by simp) (by simp)
      intro mail' hmail
      rw [← Option.some.inj hmail]
      exact hs.running i mail hold
  | unstarted mail err hfailed =>
      rw [hstartable mail rfl] at hfailed
      cases hfailed

/-- **Step lemma.** -/
theorem settles_step (hT : T.Lawful) (s : State τ) (a : Label τ) (s' : State τ)
    (h : Locked s ∧ Settles T s) (hstartable : Startable s a)
    (hstep : (restarting T).step s a = some s') :
    Locked s' ∧ Settles T s' := by
  obtain ⟨hlocked, hsettles⟩ := h
  refine ⟨locked_step s a s' hlocked hstep, ?_⟩
  rcases step_cases hstep with ⟨c, -, rfl⟩ |
    ⟨i, o, n, rest, -, hpending, ⟨-, hidle, rfl⟩ | ⟨hrestarts, rfl⟩⟩ |
    ⟨i, outcome, m, h', pc, rfl, hmoves, rfl⟩
  · -- the configuration is written
    cases hrestarts : T.restarts s.config c with
    | true => exact .inl ⟨(s.config, c), by simp, hrestarts⟩
    | false =>
        obtain rfl := restarts_eq_false hT hrestarts
        rcases hsettles with ⟨p, hp, hchanged⟩ | hstop | hfresh
        · exact .inl ⟨p, List.mem_append_left _ hp, hchanged⟩
        · exact .inr (.inl hstop)
        · exact .inr (.inr ⟨hfresh.made, hfresh.notified, hfresh.enabled,
            hfresh.running, hfresh.owed⟩)
  · -- a change is noticed that concerns the manager
    exact .inr (.inl ⟨i, by simp⟩)
  · -- a change is noticed that does not
    rcases hsettles with ⟨p, hp, hchanged⟩ | hstop | hfresh
    · rw [hpending] at hp
      rcases List.mem_cons.mp hp with rfl | hp
      · rw [hchanged] at hrestarts
        cases hrestarts
      · exact .inl ⟨p, hp, hchanged⟩
    · exact .inr (.inl hstop)
    · exact .inr (.inr ⟨hfresh.made, hfresh.notified, hfresh.enabled,
        hfresh.running, hfresh.owed⟩)
  · rcases hsettles with hpending | ⟨j, hj⟩ | hfresh
    · exact .inl hpending
    · by_cases hji : j = i
      · -- this thread stops the manager
        subst hji
        rw [hj] at hmoves
        cases hmoves with
        | stopped hfree => exact .inr (.inr (fresh_stopped hlocked hfree))
      · exact .inr (.inl ⟨j, by simpa [Pool.set_ne _ _ hji] using hj⟩)
    · exact .inr (.inr (hfresh.moves hlocked hstartable hmoves))

/-- Some thread can go on, unless all have ended. -/
theorem Locked.goes_on {s : State τ} (h : Locked s)
    (hunfinished : ∃ i, s.threads i ≠ .idle ∧ s.threads i ≠ .done) :
    ∃ i s', (restarting T).step s (.statement i (.ok ())) = some s' := by
  -- the holder of the mutex can always go on, and anybody if it is free
  have hstep : ∀ i, s.threads i ≠ .idle → s.threads i ≠ .done →
      (s.holder = none ∨ s.holder = some i) →
      ((advance T i (.ok ()) s.config s.manager s.holder
        (s.threads i)).isSome = true) := by
    intro i hidle hdone hmutex
    cases hpc : s.threads i with
    | idle => exact absurd hpc hidle
    | done => exact absurd hpc hdone
    | stop =>
        have hfree : s.holder = none := by
          refine hmutex.resolve_right fun hi => ?_
          have := (h i).mpr hi
          rw [hpc] at this
          exact this
        simp [advance, hfree]
    | start =>
        have hfree : s.holder = none := by
          refine hmutex.resolve_right fun hi => ?_
          have := (h i).mpr hi
          rw [hpc] at this
          exact this
        simp only [advance, hfree, if_true]
        split <;> rfl
    | readNotifications =>
        simp only [advance]
        split <;> rfl
    | readEnabled =>
        simp only [advance]
        split <;> rfl
    | readMail => rfl
    | run mail => rfl
  have hrun : ∀ i, (advance T i (.ok ()) s.config s.manager s.holder
      (s.threads i)).isSome = true →
      ∃ s', (restarting T).step s (.statement i (.ok ())) = some s' := by
    intro i hi
    obtain ⟨x, hx⟩ := Option.isSome_iff_exists.mp hi
    exact ⟨_, by simp only [restarting, hx, Option.map_some]; rfl⟩
  cases hholder : s.holder with
  | none =>
      obtain ⟨i, hidle, hdone⟩ := hunfinished
      exact ⟨i, hrun i (hstep i hidle hdone (.inl hholder))⟩
  | some i =>
      have hholds := (h i).mpr hholder
      refine ⟨i, hrun i (hstep i ?_ ?_ (.inr hholder))⟩
      · intro hidle
        rw [hidle] at hholds
        exact hholds
      · intro hdone
        rw [hdone] at hholds
        exact hholds

end Steps

/-! ## A restart that nothing interrupts -/

section Alone

variable {T : Transport τ}

/-- A thread carries out its next statement and then the others. -/
private theorem run_statement {s : State τ} {i n : Nat}
    {outcome : Except GoError Unit} {m : Option τ} {h : Option Nat} {p : Pc τ}
    (hadvance : advance T i outcome s.config s.manager s.holder (s.threads i) =
      some (m, h, p)) :
    (restarting T).run s (List.replicate (n + 1) (.statement i outcome)) =
      (restarting T).run
        { s with
          manager := m
          holder := h
          threads := s.threads.set i p }
        (List.replicate n (.statement i outcome)) := by
  have hstep : (restarting T).step s (.statement i outcome) =
      some { s with
        manager := m
        holder := h
        threads := s.threads.set i p } := by
    simp only [restarting, hadvance, Option.map_some]
  rw [List.replicate_succ, Machine.run_cons, hstep, Option.bind_some]

/-- The state that a goroutine leaves. -/
def State.ends (s : State τ) (i : Nat) (m : Option τ) : State τ :=
  { s with
    manager := m
    holder := none
    threads := s.threads.set i .done }

private theorem set_set (ts : Pool (Pc τ)) (i : Nat) (pc pc' : Pc τ) :
    (ts.set i pc).set i pc' = ts.set i pc' :=
  Function.update_idem _ _ _

/-- A goroutine that nobody interrupts: its restart is that of the mail manager
that is or is not running, and the new manager is made from the present
settings. -/
theorem restart_alone (s : State τ) (i : Nat) (outcome : Except GoError Unit)
    (hstop : s.threads i = .stop) (hfree : s.holder = none) (ms : Mail.State)
    (hnotifications : ms.settings.notificationsEnabled = s.config.notifications)
    (henabled : ms.settings.mailEnabled = T.enabled s.config.mail) :
    ∃ n m, (restarting T).run s
        (List.replicate n (.statement i outcome)) = some (s.ends i m) ∧
      m.isSome = (Mail.restart outcome ms).manager ∧
      (m = none ∨ m = T.wanted s.config) := by
  have hstopped : ∀ n, (restarting T).run s
        (List.replicate (n + 1) (.statement i outcome)) =
      (restarting T).run
        { s with
          manager := none
          holder := none
          threads := s.threads.set i .start }
        (List.replicate n (.statement i outcome)) := by
    intro n
    apply run_statement
    simp [hstop, advance, hfree]
  have hentered : ∀ n, (restarting T).run s
        (List.replicate (n + 2) (.statement i outcome)) =
      (restarting T).run
        { s with
          manager := none
          holder := some i
          threads := s.threads.set i .readNotifications }
        (List.replicate n (.statement i outcome)) := by
    intro n
    rw [hstopped (n + 1), run_statement (m := none) (h := some i)
      (p := .readNotifications) (by simp [advance])]
    simp [set_set]
  cases hc : s.config.notifications with
  | false =>
      refine ⟨3, none, ?_, ?_, .inl rfl⟩
      · rw [hentered 1, run_statement (m := none) (h := none) (p := .done)
          (by simp [advance, hc])]
        simp [set_set, State.ends]
      · simp [Mail.restart, Mail.start, Mail.stop, hnotifications, hc]
  | true =>
      cases he : T.enabled s.config.mail with
      | false =>
          refine ⟨4, none, ?_, ?_, .inl rfl⟩
          · rw [hentered 2, run_statement (m := none) (h := some i)
                (p := .readEnabled) (by simp [advance, hc]),
              run_statement (m := none) (h := none) (p := .done)
                (by simp [advance, he])]
            simp [set_set, State.ends]
          · simp [Mail.restart, Mail.start, Mail.stop, henabled, he]
      | true =>
          have hrun : ∀ n, (restarting T).run s
                (List.replicate (n + 5) (.statement i outcome)) =
              (restarting T).run
                { s with
                  manager := none
                  holder := some i
                  threads := s.threads.set i (.run s.config.mail) }
                (List.replicate n (.statement i outcome)) := by
            intro n
            rw [hentered (n + 3), run_statement (m := none) (h := some i)
                (p := .readEnabled) (by simp [advance, hc]),
              run_statement (m := none) (h := some i) (p := .readMail)
                (by simp [advance, he]),
              run_statement (m := none) (h := some i)
                (p := .run s.config.mail) (by simp [advance])]
            simp [set_set]
          cases outcome with
          | ok u =>
              refine ⟨6, some s.config.mail, ?_, ?_,
                .inr (wanted_of_enabled hc he).symm⟩
              · rw [hrun 1, run_statement (m := some s.config.mail) (h := none)
                  (p := .done) (by simp [advance])]
                simp [set_set, State.ends]
              · simp [Mail.restart, Mail.start, Mail.stop, hnotifications,
                  henabled, hc, he]
          | error err =>
              refine ⟨6, none, ?_, ?_, .inl rfl⟩
              · rw [hrun 1, run_statement (m := none) (h := none) (p := .done)
                  (by simp [advance])]
                simp [set_set, State.ends]
              · simp [Mail.restart, Mail.start, Mail.stop, hnotifications,
                  henabled, hc, he]

end Alone

/-! ## The main result -/

/-- Every change was noticed, and every goroutine has ended. -/
structure AtRest (s : State τ) : Prop where
  noticed : s.pending = []
  ended : ∀ i, s.threads i = .idle ∨ s.threads i = .done

/-- **Restarts converge.**  In every run in which each manager that is made can
be started, some goroutine can go on as long as one has not ended; and once every
change was noticed and all have ended, the manager is the one the configuration
asks for. -/
theorem restarts_converge (T : Transport τ) (hT : T.Lawful) (c : Config τ)
    (as : List (Label τ)) (s : State τ)
    (hrun : (restarting T).run (init c) as = some s)
    (hstartable : (restarting T).Along Startable (init c) as) :
    ((∃ i, s.threads i ≠ .idle ∧ s.threads i ≠ .done) →
        ∃ i s', (restarting T).step s (.statement i (.ok ())) = some s') ∧
      (AtRest s → s.manager = T.wanted s.config) := by
  obtain ⟨hlocked, hsettles⟩ : Locked s ∧ Settles T s :=
    Machine.invariant_along (settles_step hT) as (init c) s
      ⟨locked_init c, .inr (.inr (fresh_init c))⟩ hstartable hrun
  refine ⟨hlocked.goes_on, fun hrest => ?_⟩
  rcases hsettles with ⟨p, hp, -⟩ | ⟨i, hi⟩ | hfresh
  · rw [hrest.noticed] at hp
    exact absurd hp List.not_mem_nil
  · rcases hrest.ended i with h | h <;> simp [h] at hi
  · cases hmanager : s.manager with
    | some m => exact (hfresh.made m hmanager).symm
    | none =>
        by_contra hwanted
        obtain ⟨i, hi⟩ := hfresh.owed hmanager (Ne.symm hwanted)
        rcases hrest.ended i with h | h <;> simp [h, Pc.Starts, Pc.Holds] at hi

/-- A transport that is told apart by a number and a switch. -/
private def numbered : Transport (Bool × Nat) where
  enabled m := m.1
  changed a b := decide (a ≠ b)

private theorem numbered_lawful : numbered.Lawful := by
  intro a b h
  simpa [numbered] using h

/-- The mailer starts with one server; the server is changed, and changed again
while the first goroutine is in `Start`.  The second one stops the manager made
from settings that are no longer there. -/
private def twice : List (Label (Bool × Nat)) :=
  [.statement 0 (.ok ()), .statement 0 (.ok ()), .statement 0 (.ok ()),
    .statement 0 (.ok ()), .statement 0 (.ok ()),
    .configure ⟨true, (true, 2)⟩, .notice 1,
    .statement 1 (.ok ()), .statement 1 (.ok ()), .statement 1 (.ok ()),
    .statement 1 (.ok ()), .statement 1 (.ok ()),
    .configure ⟨true, (true, 3)⟩, .notice 2,
    .statement 1 (.ok ()),
    .statement 2 (.ok ()), .statement 2 (.ok ()), .statement 2 (.ok ()),
    .statement 2 (.ok ()), .statement 2 (.ok ()), .statement 2 (.ok ())]

private theorem twice_startable :
    (restarting numbered).Along Startable (init ⟨true, (true, 1)⟩) twice := by
  apply Machine.along_of_mem
  simp [twice, Startable]

theorem restarts_converge_twice :
    ∃ s, (restarting numbered).run (init ⟨true, (true, 1)⟩) twice = some s ∧
      AtRest s ∧ s.manager = some (true, 3) := by
  obtain ⟨s, hrun, hconfig, hrest⟩ :
      ∃ s, (restarting numbered).run (init ⟨true, (true, 1)⟩) twice = some s ∧
        s.config = ⟨true, (true, 3)⟩ ∧ AtRest s := by
    refine ⟨_, rfl, rfl, rfl, fun i => ?_⟩
    rcases i with _ | _ | _ | i
    · exact .inr rfl
    · exact .inr rfl
    · exact .inr rfl
    · exact .inl rfl
  have hmanager := (restarts_converge numbered numbered_lawful
    ⟨true, (true, 1)⟩ twice s hrun twice_startable).2 hrest
  rw [hconfig] at hmanager
  exact ⟨s, hrun, hrest, hmanager⟩

end Hdns.Ports.MailRestarts

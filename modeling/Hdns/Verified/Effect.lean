import Mathlib.Data.List.Forall2
import Mathlib.Logic.Basic

/-!
# Programs over fallible external calls

A sequential program of this package is a sequence of calls to the outside
(SQL statements, requests to an API) with pure Go code in between.  Any call can
go wrong in two ways that matter: it fails without effect, or it takes effect
and only its answer is lost, so that the caller sees an error although the
world has changed.  `Prog` is the state-and-error monad of such programs; what
goes wrong is decided by an *oracle* that sees the number of the call and its
kind, so one quantifier over oracles ranges over every pattern of failures.

There are no transactions: the state reached is kept when an error is raised.

## The calculus

`Prog.wp p o s Q` says that running `p` from `s` under the oracle `o` ends with
a result and a system that satisfy `Q`.  A function of the model gets one
specification lemma in this form, and a caller uses it through `wp_bind_of`
without looking into the callee:

* `wp_pure`, `wp_throw`, `wp_get`, `wp_modify`, `wp_attempt` — the basic
  programs, by computation;
* `wp_call_of` — an external call, one obligation for the answer and one for
  each way of failing;
* `wp_bind_of`, `wp_mono` — sequencing and consequence;
* `Keeps.bind`, `Keeps.foldlM`, … — programs that stay inside a preorder on
  states, for frame conditions and for loops;
* `wpOk_bind`, `wpOk_foldlM`, `KeepsOk.bind`, … — what holds if a program
  returns a value;
* `Succeeds.bind`, … — programs that always return one;
* `Returns.bind`, … — what is known of the value a program returns;
* `Raises.bind`, … — what is known of the error a program raises;
* `Completes.bind`, … — programs that return a value in a friendly world.
-/

namespace Hdns.Verified

/-- What the environment does to one external call. -/
inductive Fault where
  /-- The call takes effect and is answered. -/
  | none
  /-- The call has no effect and reports an error. -/
  | fails
  /-- The call takes effect, but an error is reported. -/
  | lostReply
  deriving DecidableEq, Repr

/-- The fault of every call, by the number of the call and its kind. -/
abbrev Oracle (C : Type) := Nat → C → Fault

/-- The oracle under which nothing goes wrong. -/
def Oracle.quiet {C : Type} : Oracle C := fun _ _ => .none

/-- The oracle of a context that is cancelled in front of call number `n`: the
calls from then on fail without effect. -/
def Oracle.cancelledAt {C : Type} (n : Nat) : Oracle C :=
  fun i _ => if i < n then .none else .fails

theorem Oracle.cancelledAt_of_lt {C : Type} {n i : Nat} (h : i < n) (c : C) :
    Oracle.cancelledAt n i c = .none := if_pos h

theorem Oracle.cancelledAt_of_le {C : Type} {n i : Nat} (h : n ≤ i) (c : C) :
    Oracle.cancelledAt n i c = .fails := if_neg (Nat.not_lt.mpr h)

/-- The state of the world and the number of calls made so far. -/
structure Sys (σ : Type) where
  state : σ
  clock : Nat
  deriving DecidableEq, Repr

/-- A program with external calls of kind `C`, on a world `σ`, raising errors
`ε`. -/
def Prog (C σ ε α : Type) : Type :=
  Oracle C → Sys σ → Except ε α × Sys σ

namespace Prog

variable {C σ ε α β : Type}

/-- Running `f` on the answer of `p`; an error of `p` is the error of both. -/
protected def bind (p : Prog C σ ε α) (f : α → Prog C σ ε β) : Prog C σ ε β :=
  fun o s =>
    match p o s with
    | (.ok a, t) => f a o t
    | (.error e, t) => (.error e, t)

instance : Monad (Prog C σ ε) where
  pure a := fun _ s => (.ok a, s)
  bind := Prog.bind

theorem bind_apply (p : Prog C σ ε α) (f : α → Prog C σ ε β) (o : Oracle C)
    (s : Sys σ) :
    (p >>= f) o s =
      match p o s with
      | (.ok a, t) => f a o t
      | (.error e, t) => (.error e, t) := rfl

theorem bind_pure_eq (p : Prog C σ ε α) : (p >>= pure) = p := by
  funext o s
  rw [bind_apply]
  cases h : p o s with
  | mk r t => cases r <;> rfl

theorem bind_assoc_eq {γ : Type} (p : Prog C σ ε α) (f : α → Prog C σ ε β)
    (g : β → Prog C σ ε γ) :
    (p >>= f >>= g) = p >>= fun a => f a >>= g := by
  funext o s
  simp only [bind_apply]
  rcases p o s with ⟨_ | _, t⟩ <;> rfl

instance : LawfulMonad (Prog C σ ε) :=
  LawfulMonad.mk' _ bind_pure_eq (fun _ _ => rfl) bind_assoc_eq

theorem forM_map {γ : Type} (g : α → γ) (f : γ → Prog C σ ε Unit) (as : List α) :
    (as.map g).forM f = as.forM fun a => f (g a) := by
  induction as with
  | nil => rfl
  | cons a as ih =>
      show (f (g a) >>= fun _ => (as.map g).forM f) = _
      rw [ih]
      rfl

/-- Return an error. -/
protected def throw (e : ε) : Prog C σ ε α := fun _ s => (.error e, s)

/-- Return the outcome of pure code. -/
def ofExcept (r : Except ε α) : Prog C σ ε α := fun _ s => (r, s)

/-- Run a program and hand its error to the caller as a value. -/
def attempt (p : Prog C σ ε α) : Prog C σ ε (Except ε α) :=
  fun o s => (.ok (p o s).1, (p o s).2)

/-- Run a program and pass its error through `f`: what a caller does that
returns a wrapped error. -/
def mapError (f : ε → ε) (p : Prog C σ ε α) : Prog C σ ε α :=
  fun o s => ((p o s).1.mapError f, (p o s).2)

/-- The same where the caller has errors of another type. -/
def wrapError {ε' : Type} (f : ε → ε') (p : Prog C σ ε α) : Prog C σ ε' α :=
  fun o s => ((p o s).1.mapError f, (p o s).2)

/-- Run a program on a part of a larger world, where its calls are some of the
calls there are. -/
def within {C' σ' : Type} (kind : C → C') (get : σ' → σ) (set : σ → σ' → σ')
    (p : Prog C σ ε α) : Prog C' σ' ε α :=
  fun o s =>
    let r := p (fun n c => o n (kind c)) ⟨get s.state, s.clock⟩
    (r.1, ⟨set r.2.state s.state, r.2.clock⟩)

theorem ofExcept_pure (a : α) :
    (ofExcept (pure a) : Prog C σ ε α) = pure a := rfl

/-- A sequence of pure code is a sequence. -/
theorem ofExcept_bind (r : Except ε α) (f : α → Except ε β) :
    (ofExcept (r >>= f) : Prog C σ ε β) = ofExcept r >>= fun a => ofExcept (f a) := by
  cases r <;> rfl

/-- What `attempt` sees of a sequence. -/
theorem attempt_bind (p : Prog C σ ε α) (f : α → Prog C σ ε β) :
    (p >>= f).attempt = p.attempt >>= fun r =>
      match r with
      | .ok a => (f a).attempt
      | .error e => pure (.error e) := by
  funext o s
  simp only [attempt, bind_apply]
  rcases p o s with ⟨_ | _, t⟩ <;> rfl

@[simp] theorem attempt_pure (a : α) :
    (pure a : Prog C σ ε α).attempt = pure (.ok a) := rfl

@[simp] theorem attempt_throw (e : ε) :
    (Prog.throw e : Prog C σ ε α).attempt = pure (.error e) := rfl

@[simp] theorem attempt_ofExcept (r : Except ε α) :
    (ofExcept r : Prog C σ ε α).attempt = pure r := rfl

@[simp] theorem attempt_attempt (p : Prog C σ ε α) :
    p.attempt.attempt = p.attempt >>= fun r => pure (.ok r) := rfl

theorem attempt_mapError (f : ε → ε) (p : Prog C σ ε α) :
    (p.mapError f).attempt = p.attempt >>= fun r => pure (r.mapError f) := rfl

theorem mapError_bind (f : ε → ε) (p : Prog C σ ε α) (g : α → Prog C σ ε β) :
    (p >>= g).mapError f = p.mapError f >>= fun a => (g a).mapError f := by
  funext o s
  simp only [mapError, bind_apply]
  rcases p o s with ⟨_ | _, t⟩ <;> rfl

/-- The current world. -/
def get : Prog C σ ε σ := fun _ s => (.ok s.state, s)

/-- A change of the world that involves no external call. -/
def modify (f : σ → σ) : Prog C σ ε Unit :=
  fun _ s => (.ok (), ⟨f s.state, s.clock⟩)

/-- An external call of kind `c`: `act` is its answer and effect when it is
carried out, `err` the error the caller sees when it goes wrong. -/
def call (c : C) (err : ε) (act : σ → Except ε α × σ) : Prog C σ ε α :=
  fun o s =>
    match o s.clock c with
    | .none => ((act s.state).1, ⟨(act s.state).2, s.clock + 1⟩)
    | .fails => (.error err, ⟨s.state, s.clock + 1⟩)
    | .lostReply => (.error err, ⟨(act s.state).2, s.clock + 1⟩)

/-- An external call that only reads. -/
def query (c : C) (err : ε) (read : σ → Except ε α) : Prog C σ ε α :=
  call c err fun w => (read w, w)

/-! ## Weakest preconditions -/

/-- Running `p` from `s` under `o` ends in `Q`. -/
def wp (p : Prog C σ ε α) (o : Oracle C) (s : Sys σ)
    (Q : Except ε α → Sys σ → Prop) : Prop :=
  Q (p o s).1 (p o s).2

section Rules

variable {o : Oracle C} {s : Sys σ}

theorem wp_mono {p : Prog C σ ε α} {Q R : Except ε α → Sys σ → Prop}
    (h : p.wp o s Q) (hQ : ∀ r t, Q r t → R r t) : p.wp o s R :=
  hQ _ _ h

theorem wp_and {p : Prog C σ ε α} {Q R : Except ε α → Sys σ → Prop}
    (hQ : p.wp o s Q) (hR : p.wp o s R) :
    p.wp o s fun r t => Q r t ∧ R r t := ⟨hQ, hR⟩

@[simp] theorem wp_pure (a : α) (Q : Except ε α → Sys σ → Prop) :
    (pure a : Prog C σ ε α).wp o s Q ↔ Q (.ok a) s := Iff.rfl

@[simp] theorem wp_throw (e : ε) (Q : Except ε α → Sys σ → Prop) :
    (Prog.throw e : Prog C σ ε α).wp o s Q ↔ Q (.error e) s := Iff.rfl

@[simp] theorem wp_ofExcept (r : Except ε α)
    (Q : Except ε α → Sys σ → Prop) :
    (ofExcept r : Prog C σ ε α).wp o s Q ↔ Q r s := Iff.rfl

@[simp] theorem wp_get (Q : Except ε σ → Sys σ → Prop) :
    (get : Prog C σ ε σ).wp o s Q ↔ Q (.ok s.state) s := Iff.rfl

@[simp] theorem wp_modify (f : σ → σ) (Q : Except ε Unit → Sys σ → Prop) :
    (modify f : Prog C σ ε Unit).wp o s Q ↔
      Q (.ok ()) ⟨f s.state, s.clock⟩ := Iff.rfl

@[simp] theorem wp_attempt (p : Prog C σ ε α)
    (Q : Except ε (Except ε α) → Sys σ → Prop) :
    p.attempt.wp o s Q ↔ p.wp o s fun r t => Q (.ok r) t := Iff.rfl

@[simp] theorem wp_mapError (f : ε → ε) (p : Prog C σ ε α)
    (Q : Except ε α → Sys σ → Prop) :
    (p.mapError f).wp o s Q ↔ p.wp o s fun r t => Q (r.mapError f) t := Iff.rfl

@[simp] theorem wp_wrapError {ε' : Type} (f : ε → ε') (p : Prog C σ ε α)
    (Q : Except ε' α → Sys σ → Prop) :
    (p.wrapError f).wp o s Q ↔ p.wp o s fun r t => Q (r.mapError f) t := Iff.rfl

/-- The part of the world is changed by the program, the rest is kept. -/
theorem wp_within {C' σ' : Type} {kind : C → C'} {get : σ' → σ}
    {set : σ → σ' → σ'} (p : Prog C σ ε α) {o : Oracle C'} {s : Sys σ'}
    (Q : Except ε α → Sys σ' → Prop) :
    (p.within kind get set).wp o s Q ↔
      p.wp (fun n c => o n (kind c)) ⟨get s.state, s.clock⟩ fun r t =>
        Q r ⟨set t.state s.state, t.clock⟩ := Iff.rfl

/-- The exact precondition of a sequence. -/
theorem wp_bind (p : Prog C σ ε α) (f : α → Prog C σ ε β)
    (Q : Except ε β → Sys σ → Prop) :
    (p >>= f).wp o s Q ↔ p.wp o s fun r t =>
      match r with
      | .ok a => (f a).wp o t Q
      | .error e => Q (.error e) t := by
  simp only [wp, bind_apply]
  rcases p o s with ⟨_ | _, t⟩ <;> rfl

/-- **Sequencing rule.**  The callee enters through its specification `R`
only. -/
theorem wp_bind_of {p : Prog C σ ε α} {f : α → Prog C σ ε β}
    {R : Except ε α → Sys σ → Prop} {Q : Except ε β → Sys σ → Prop}
    (hp : p.wp o s R)
    (herr : ∀ e t, R (.error e) t → Q (.error e) t)
    (hok : ∀ a t, R (.ok a) t → (f a).wp o t Q) :
    (p >>= f).wp o s Q := by
  rw [wp_bind]
  refine wp_mono hp ?_
  rintro (e | a) t h
  · exact herr e t h
  · exact hok a t h

/-- **Call rule.**  One obligation for the call being carried out, one for
each way it can go wrong. -/
theorem wp_call_of {c : C} {err : ε} {act : σ → Except ε α × σ}
    {Q : Except ε α → Sys σ → Prop}
    (hdone : Q (act s.state).1 ⟨(act s.state).2, s.clock + 1⟩)
    (hfail : o s.clock c = .fails → Q (.error err) ⟨s.state, s.clock + 1⟩)
    (hlost : o s.clock c = .lostReply →
      Q (.error err) ⟨(act s.state).2, s.clock + 1⟩) :
    (call c err act).wp o s Q := by
  unfold wp call
  cases h : o s.clock c with
  | none => exact hdone
  | fails => exact hfail h
  | lostReply => exact hlost h

/-- A read-only call leaves the world alone, however it ends. -/
theorem wp_query_of {c : C} {err : ε} {read : σ → Except ε α}
    {Q : Except ε α → Sys σ → Prop}
    (hdone : Q (read s.state) ⟨s.state, s.clock + 1⟩)
    (hfail : Q (.error err) ⟨s.state, s.clock + 1⟩) :
    (query c err read).wp o s Q :=
  wp_call_of hdone (fun _ => hfail) (fun _ => hfail)

/-- Under an oracle that leaves this call alone, it is carried out. -/
theorem wp_call_none {c : C} {err : ε} {act : σ → Except ε α × σ}
    {Q : Except ε α → Sys σ → Prop} (ho : o s.clock c = .none) :
    (call c err act).wp o s Q ↔
      Q (act s.state).1 ⟨(act s.state).2, s.clock + 1⟩ := by
  unfold wp call
  rw [ho]

/-- A call that does not get through. -/
theorem wp_call_fails {c : C} {err : ε} {act : σ → Except ε α × σ}
    {Q : Except ε α → Sys σ → Prop} (ho : o s.clock c = .fails) :
    (call c err act).wp o s Q ↔ Q (.error err) ⟨s.state, s.clock + 1⟩ := by
  unfold wp call
  rw [ho]

/-- A call that is carried out without an answer. -/
theorem wp_call_lost {c : C} {err : ε} {act : σ → Except ε α × σ}
    {Q : Except ε α → Sys σ → Prop} (ho : o s.clock c = .lostReply) :
    (call c err act).wp o s Q ↔
      Q (.error err) ⟨(act s.state).2, s.clock + 1⟩ := by
  unfold wp call
  rw [ho]

/-- A call takes effect unless it fails, and an answer is that of the effect. -/
theorem wp_call_cases (c : C) (err : ε) (act : σ → Except ε α × σ) :
    (call c err act).wp o s fun r t => t.clock = s.clock + 1 ∧
      (o s.clock c = .fails ∧ t.state = s.state ∧ r = .error err ∨
        o s.clock c ≠ .fails ∧ t.state = (act s.state).2 ∧
          ∀ a, r = .ok a → (act s.state).1 = .ok a) := by
  cases h : o s.clock c with
  | none =>
      exact (wp_call_none h).mpr ⟨rfl, .inr ⟨nofun, rfl, fun a ha => ha⟩⟩
  | fails => exact (wp_call_fails h).mpr ⟨rfl, .inl ⟨rfl, rfl, rfl⟩⟩
  | lostReply =>
      exact (wp_call_lost h).mpr ⟨rfl, .inr ⟨nofun, rfl, nofun⟩⟩

theorem wp_query_none {c : C} {err : ε} {read : σ → Except ε α}
    {Q : Except ε α → Sys σ → Prop} (ho : o s.clock c = .none) :
    (query c err read).wp o s Q ↔ Q (read s.state) ⟨s.state, s.clock + 1⟩ :=
  wp_call_none ho

/-- A query that is not answered. -/
theorem wp_query_faulty {c : C} {err : ε} {read : σ → Except ε α}
    {Q : Except ε α → Sys σ → Prop} (ho : o s.clock c ≠ .none) :
    (query c err read).wp o s Q ↔ Q (.error err) ⟨s.state, s.clock + 1⟩ := by
  cases h : o s.clock c with
  | none => exact absurd h ho
  | fails => exact wp_call_fails h
  | lostReply => exact wp_call_lost h

@[simp] theorem wp_call_quiet (c : C) (err : ε) (act : σ → Except ε α × σ)
    (Q : Except ε α → Sys σ → Prop) :
    (call c err act).wp .quiet s Q ↔
      Q (act s.state).1 ⟨(act s.state).2, s.clock + 1⟩ := Iff.rfl

@[simp] theorem wp_query_quiet (c : C) (err : ε) (read : σ → Except ε α)
    (Q : Except ε α → Sys σ → Prop) :
    (query c err read).wp .quiet s Q ↔
      Q (read s.state) ⟨s.state, s.clock + 1⟩ := Iff.rfl

end Rules

/-! ## Programs that stay inside a preorder on states -/

/-- Whatever goes wrong among the calls, the program moves the world along
`R`. -/
def Keeps (o : Oracle C) (R : σ → σ → Prop) (p : Prog C σ ε α) : Prop :=
  ∀ s, p.wp o s fun _ t => R s.state t.state

namespace Keeps

variable {o : Oracle C} {R S : σ → σ → Prop}

theorem mono {p : Prog C σ ε α} (h : Keeps o R p)
    (hRS : ∀ x y, R x y → S x y) : Keeps o S p :=
  fun s => wp_mono (h s) fun _ _ => hRS _ _

theorem attempt {p : Prog C σ ε α} (h : Keeps o R p) :
    Keeps o R p.attempt := h

theorem mapError {p : Prog C σ ε α} (h : Keeps o R p) (f : ε → ε) :
    Keeps o R (p.mapError f) := h

/-- A call whose effect stays inside a reflexive relation. -/
theorem call (hrefl : ∀ x, R x x) {c : C} {err : ε}
    {act : σ → Except ε α × σ} (h : ∀ w, R w (act w).2) :
    Keeps o R (call c err act) :=
  fun s => wp_call_of (h s.state) (fun _ => hrefl _) (fun _ => h s.state)

theorem query (hrefl : ∀ x, R x x) {c : C} {err : ε}
    {read : σ → Except ε α} : Keeps o R (query c err read) :=
  call hrefl fun w => hrefl w

theorem pure (hrefl : ∀ x, R x x) (a : α) :
    Keeps o R (Pure.pure a : Prog C σ ε α) := fun _ => hrefl _

theorem throw (hrefl : ∀ x, R x x) (e : ε) :
    Keeps o R (Prog.throw e : Prog C σ ε α) := fun _ => hrefl _

theorem ofExcept (hrefl : ∀ x, R x x) (r : Except ε α) :
    Keeps o R (Prog.ofExcept r : Prog C σ ε α) := fun _ => hrefl _

theorem get (hrefl : ∀ x, R x x) :
    Keeps o R (Prog.get : Prog C σ ε σ) := fun _ => hrefl _

theorem bind (htrans : ∀ x y z, R x y → R y z → R x z)
    {p : Prog C σ ε α} {f : α → Prog C σ ε β}
    (hp : Keeps o R p) (hf : ∀ a, Keeps o R (f a)) : Keeps o R (p >>= f) :=
  fun s => wp_bind_of (hp s) (fun _ _ h => h)
    fun a t h => wp_mono (hf a t) fun _ _ => htrans _ _ _ h

theorem modify {f : σ → σ} (h : ∀ w, R w (f w)) :
    Keeps o R (Prog.modify f : Prog C σ ε Unit) := fun s => h s.state

theorem ite {c : Prop} [Decidable c] {p q : Prog C σ ε α}
    (hp : c → Keeps o R p) (hq : ¬c → Keeps o R q) :
    Keeps o R (if c then p else q) := by
  split
  · next h => exact hp h
  · next h => exact hq h

theorem forM_mem (hrefl : ∀ x, R x x)
    (htrans : ∀ x y z, R x y → R y z → R x z) {f : α → Prog C σ ε Unit} :
    ∀ as : List α, (∀ a ∈ as, Keeps o R (f a)) → Keeps o R (as.forM f) := by
  intro as
  induction as with
  | nil => exact fun _ => Keeps.pure hrefl ()
  | cons a as ih =>
      intro hf
      exact Keeps.bind htrans (hf a List.mem_cons_self) fun _ =>
        ih fun x hx => hf x (List.mem_cons_of_mem a hx)

theorem forM (hrefl : ∀ x, R x x) (htrans : ∀ x y z, R x y → R y z → R x z)
    {f : α → Prog C σ ε Unit} (hf : ∀ a, Keeps o R (f a)) (as : List α) :
    Keeps o R (as.forM f) :=
  forM_mem hrefl htrans as fun a _ => hf a

/-- A loop stays inside a preorder when its body does. -/
theorem foldlM (hrefl : ∀ x, R x x) (htrans : ∀ x y z, R x y → R y z → R x z)
    {f : β → α → Prog C σ ε β} (hf : ∀ b a, Keeps o R (f b a)) :
    ∀ (as : List α) (b : β), Keeps o R (as.foldlM f b) := by
  intro as
  induction as with
  | nil => exact fun b => Keeps.pure hrefl b
  | cons a as ih =>
      intro b
      rw [List.foldlM_cons]
      exact Keeps.bind htrans (hf b a) ih

end Keeps

/-! ## Pure code that returns a value -/

/-- What a sequence of pure code has returned on the way. -/
theorem except_bind_eq_ok {x : Except ε α} {f : α → Except ε β} {b : β} :
    x >>= f = .ok b ↔ ∃ a, x = .ok a ∧ f a = .ok b := by
  cases x with
  | error e =>
      constructor
      · intro h
        cases h
      · rintro ⟨_, h, _⟩
        cases h
  | ok a =>
      refine ⟨fun h => ⟨a, rfl, h⟩, ?_⟩
      rintro ⟨a', ha, h⟩
      exact Except.ok.inj ha ▸ h

/-- Where a sequence of pure code has failed. -/
theorem except_bind_eq_error {x : Except ε α} {f : α → Except ε β} {e : ε} :
    x >>= f = .error e ↔ x = .error e ∨ ∃ a, x = .ok a ∧ f a = .error e := by
  cases x with
  | error e' =>
      refine ⟨fun h => .inl (congrArg _ (Except.error.inj h)), ?_⟩
      rintro (h | ⟨_, h, _⟩)
      · exact congrArg _ (Except.error.inj h)
      · cases h
  | ok a =>
      refine ⟨fun h => .inr ⟨a, rfl, h⟩, ?_⟩
      rintro (h | ⟨a', ha, h⟩)
      · cases h
      · exact Except.ok.inj ha ▸ h

theorem mapError_eq_error {ε' : Type} {x : Except ε α} {f : ε → ε'} {e : ε'} :
    x.mapError f = .error e ↔ ∃ e', x = .error e' ∧ f e' = e := by
  cases x with
  | error e' =>
      refine ⟨fun h => ⟨e', rfl, Except.error.inj h⟩, ?_⟩
      rintro ⟨e'', he, h⟩
      rw [← h, ← Except.error.inj he]
      rfl
  | ok a =>
      refine ⟨nofun, ?_⟩
      rintro ⟨_, h, _⟩
      cases h

/-- Wrapping an error leaves a value alone. -/
theorem mapError_eq_ok {ε' : Type} {x : Except ε α} {f : ε → ε'} {a : α} :
    x.mapError f = .ok a ↔ x = .ok a := by
  cases x with
  | error e => exact ⟨nofun, nofun⟩
  | ok a' => exact ⟨fun h => congrArg _ (Except.ok.inj h),
      fun h => congrArg _ (Except.ok.inj h)⟩

/-- A loop of pure code over a list that returns its results. -/
theorem except_mapM_eq_ok {f : α → Except ε β} :
    ∀ {as : List α} {bs : List β},
      as.mapM f = .ok bs ↔ List.Forall₂ (fun a b => f a = .ok b) as bs := by
  intro as
  induction as with
  | nil =>
      intro bs
      rw [List.forall₂_nil_left_iff]
      exact ⟨fun h => (Except.ok.inj h).symm, fun h => h ▸ rfl⟩
  | cons a as ih =>
      intro bs
      rw [List.mapM_cons, except_bind_eq_ok]
      constructor
      · rintro ⟨b, hb, h⟩
        obtain ⟨bs', hbs', h⟩ := except_bind_eq_ok.mp h
        obtain rfl := Except.ok.inj h
        exact .cons hb (ih.mp hbs')
      · rintro (_ | ⟨hb, hbs⟩)
        exact ⟨_, hb, except_bind_eq_ok.mpr ⟨_, ih.mpr hbs, rfl⟩⟩

/-- Each result of such a loop comes from an element. -/
theorem except_mapM_mem {f : α → Except ε β} {as : List α} {bs : List β}
    (h : as.mapM f = .ok bs) : ∀ b ∈ bs, ∃ a ∈ as, f a = .ok b := by
  rw [except_mapM_eq_ok] at h
  induction h with
  | nil => exact fun b hb => absurd hb List.not_mem_nil
  | cons hab _ ih =>
      rw [List.forall_mem_cons]
      refine ⟨⟨_, List.mem_cons_self, hab⟩, fun b hb => ?_⟩
      obtain ⟨a, ha, hfa⟩ := ih b hb
      exact ⟨a, List.mem_cons_of_mem _ ha, hfa⟩

/-- Such a loop returns when its body does for every element. -/
theorem except_exists_mapM {f : α → Except ε β} {as : List α} :
    (∃ bs, as.mapM f = .ok bs) ↔ ∀ a ∈ as, ∃ b, f a = .ok b := by
  induction as with
  | nil => exact ⟨fun _ _ h => absurd h List.not_mem_nil, fun _ => ⟨[], rfl⟩⟩
  | cons a as ih =>
      rw [List.forall_mem_cons, ← ih]
      constructor
      · rintro ⟨_, h⟩
        rw [List.mapM_cons] at h
        obtain ⟨b, hb, h⟩ := except_bind_eq_ok.mp h
        obtain ⟨bs, hbs, -⟩ := except_bind_eq_ok.mp h
        exact ⟨⟨b, hb⟩, bs, hbs⟩
      · rintro ⟨⟨b, hb⟩, bs, hbs⟩
        refine ⟨b :: bs, ?_⟩
        rw [List.mapM_cons, hb, hbs]
        rfl

/-- A loop of checks. -/
theorem except_forM_eq_ok {f : α → Except ε Unit} {as : List α} :
    as.forM f = .ok () ↔ ∀ a ∈ as, f a = .ok () := by
  induction as with
  | nil => exact ⟨fun _ _ h => absurd h List.not_mem_nil, fun _ => rfl⟩
  | cons a as ih =>
      rw [List.forall_mem_cons, ← ih]
      show (f a >>= fun _ => as.forM f) = .ok () ↔ _
      rw [except_bind_eq_ok]
      exact ⟨fun ⟨_, h, h'⟩ => ⟨h, h'⟩, fun ⟨h, h'⟩ => ⟨_, h, h'⟩⟩

/-! ## Programs that return a value -/

/-- If the program returns a value, it does so with `Q`. -/
def wpOk (p : Prog C σ ε α) (o : Oracle C) (s : Sys σ)
    (Q : α → Sys σ → Prop) : Prop :=
  ∀ a t, p o s = (.ok a, t) → Q a t

section OkRules

variable {o : Oracle C} {s : Sys σ} {Q : α → Sys σ → Prop}

theorem wpOk_of_wp {p : Prog C σ ε α}
    (h : p.wp o s fun r t => ∀ a, r = .ok a → Q a t) : p.wpOk o s Q := by
  intro a t hrun
  simp only [wp, hrun] at h
  exact h a rfl

theorem wpOk_of_keeps {R : σ → σ → Prop} {p : Prog C σ ε α}
    (h : Keeps o R p) : p.wpOk o s fun _ t => R s.state t.state :=
  wpOk_of_wp (wp_mono (h s) fun _ _ h _ _ => h)

theorem wpOk_mono {p : Prog C σ ε α} {R : α → Sys σ → Prop}
    (h : p.wpOk o s R) (hQ : ∀ a t, R a t → Q a t) : p.wpOk o s Q :=
  fun a t hrun => hQ a t (h a t hrun)

theorem wpOk_and {p : Prog C σ ε α} {R : α → Sys σ → Prop}
    (h : p.wpOk o s Q) (h' : p.wpOk o s R) :
    p.wpOk o s fun a t => Q a t ∧ R a t :=
  fun a t hrun => ⟨h a t hrun, h' a t hrun⟩

theorem wpOk_pure {a : α} (h : Q a s) :
    (pure a : Prog C σ ε α).wpOk o s Q := by
  intro a' t hrun
  obtain ⟨hr, rfl⟩ := Prod.mk.inj hrun
  exact Except.ok.inj hr ▸ h

theorem wpOk_throw (e : ε) : (Prog.throw e : Prog C σ ε α).wpOk o s Q := by
  intro a t hrun
  cases hrun

theorem wpOk_ofExcept {r : Except ε α} (h : ∀ a, r = .ok a → Q a s) :
    (ofExcept r : Prog C σ ε α).wpOk o s Q := by
  intro a t hrun
  obtain ⟨hr, rfl⟩ := Prod.mk.inj hrun
  exact h a hr

theorem wpOk_wrapError {ε' : Type} {f : ε → ε'} {p : Prog C σ ε α}
    (h : p.wpOk o s Q) : (p.wrapError f).wpOk o s Q := by
  intro a t hrun
  obtain ⟨hr, rfl⟩ := Prod.mk.inj hrun
  cases hp : (p o s).1 with
  | error e =>
      rw [hp] at hr
      cases hr
  | ok a' =>
      rw [hp] at hr
      obtain rfl : a' = a := Except.ok.inj hr
      exact h a' _ (Prod.ext hp rfl)

theorem wpOk_mapError {f : ε → ε} {p : Prog C σ ε α} (h : p.wpOk o s Q) :
    (p.mapError f).wpOk o s Q := wpOk_wrapError h

/-- A caller that handles the errors of `p` in whatever state they leave. -/
theorem wpOk_attempt {p : Prog C σ ε α} {Q : Except ε α → Sys σ → Prop}
    (hok : p.wpOk o s fun a t => Q (.ok a) t) (herr : ∀ e t, Q (.error e) t) :
    p.attempt.wpOk o s Q := by
  intro r t hrun
  obtain ⟨hr, rfl⟩ := Prod.mk.inj hrun
  obtain rfl := Except.ok.inj hr
  cases hp : (p o s).1 with
  | error e => exact herr e _
  | ok a => exact hok a _ (Prod.ext hp rfl)

/-- The same where the caller sees the specification of `p`. -/
theorem wpOk_attempt_of_wp {p : Prog C σ ε α}
    {Q : Except ε α → Sys σ → Prop} (h : p.wp o s Q) :
    p.attempt.wpOk o s Q :=
  wpOk_of_wp ((wp_attempt p _).mpr (wp_mono h fun _ _ hQ _ hr =>
    Except.ok.inj hr ▸ hQ))

/-- **Sequencing rule** for programs that return a value. -/
theorem wpOk_bind {p : Prog C σ ε α} {f : α → Prog C σ ε β}
    {Q : β → Sys σ → Prop} (h : p.wpOk o s fun a t => (f a).wpOk o t Q) :
    (p >>= f).wpOk o s Q := by
  intro b u hrun
  rw [bind_apply] at hrun
  rcases hp : p o s with ⟨e | a, t⟩
  · rw [hp] at hrun
    cases hrun
  · rw [hp] at hrun
    exact h a t hp b u hrun

/-- The same where what the first program does is of no interest. -/
theorem wpOk_bind_any {p : Prog C σ ε α} {f : α → Prog C σ ε β}
    {Q : β → Sys σ → Prop} (h : ∀ a t, (f a).wpOk o t Q) :
    (p >>= f).wpOk o s Q :=
  wpOk_bind fun a t _ => h a t

/-- A call that returns a value has been carried out. -/
theorem wpOk_call {c : C} {err : ε} {act : σ → Except ε α × σ}
    (h : ∀ a, (act s.state).1 = .ok a → Q a ⟨(act s.state).2, s.clock + 1⟩) :
    (call c err act).wpOk o s Q := by
  refine wpOk_of_wp (wp_call_of h ?_ ?_)
  · intro _ a ha
    cases ha
  · intro _ a ha
    cases ha

theorem wpOk_query {c : C} {err : ε} {read : σ → Except ε α}
    (h : ∀ a, read s.state = .ok a → Q a ⟨s.state, s.clock + 1⟩) :
    (query c err read).wpOk o s Q := wpOk_call h

/-- **Loop rule**: what every iteration keeps. -/
theorem wpOk_foldlM {f : β → α → Prog C σ ε β} {I : β → Sys σ → Prop} :
    ∀ (as : List α) (b : β) (s : Sys σ),
      (∀ b a s, a ∈ as → I b s → (f b a).wpOk o s I) → I b s →
        (as.foldlM f b).wpOk o s I := by
  intro as
  induction as with
  | nil => exact fun b s _ h => wpOk_pure h
  | cons a as ih =>
      intro b s hstep h
      rw [List.foldlM_cons]
      refine wpOk_bind (wpOk_mono (hstep b a s List.mem_cons_self h) ?_)
      intro b' t h'
      exact ih b' t (fun b a s ha => hstep b a s (List.mem_cons_of_mem _ ha)) h'

/-- The same for a loop that collects what its iterations return. -/
theorem wpOk_mapM {f : α → Prog C σ ε β} {I : Sys σ → Prop}
    {P : α → β → Prop} :
    ∀ (as : List α) (s : Sys σ),
      (∀ a ∈ as, ∀ s, I s → (f a).wpOk o s fun b t => I t ∧ P a b) → I s →
        (as.mapM f).wpOk o s fun bs t => I t ∧ List.Forall₂ P as bs := by
  intro as
  induction as with
  | nil => exact fun s _ h => wpOk_pure ⟨h, .nil⟩
  | cons a as ih =>
      intro s hstep h
      rw [List.mapM_cons]
      refine wpOk_bind (wpOk_mono (hstep a List.mem_cons_self s h) ?_)
      rintro b t ⟨ht, hb⟩
      refine wpOk_bind (wpOk_mono (ih t (fun a' ha' =>
        hstep a' (List.mem_cons_of_mem a ha')) ht) ?_)
      rintro bs u ⟨hu, hbs⟩
      exact wpOk_pure ⟨hu, .cons hb hbs⟩

end OkRules

/-- Where the program returns a value, it has moved the world along `R`. -/
def KeepsOk (o : Oracle C) (R : σ → σ → Prop) (p : Prog C σ ε α) : Prop :=
  ∀ s, p.wpOk o s fun _ t => R s.state t.state

namespace KeepsOk

variable {o : Oracle C} {R : σ → σ → Prop}

theorem pure (hrefl : ∀ x, R x x) (a : α) :
    KeepsOk o R (Pure.pure a : Prog C σ ε α) := fun _ => wpOk_pure (hrefl _)

theorem throw (e : ε) : KeepsOk o R (Prog.throw e : Prog C σ ε α) :=
  fun _ => wpOk_throw e

theorem ofExcept (hrefl : ∀ x, R x x) (r : Except ε α) :
    KeepsOk o R (Prog.ofExcept r : Prog C σ ε α) :=
  fun _ => wpOk_ofExcept fun _ _ => hrefl _

theorem wrapError {ε' : Type} {p : Prog C σ ε α} (h : KeepsOk o R p)
    (f : ε → ε') : KeepsOk o R (p.wrapError f) := fun s => wpOk_wrapError (h s)

theorem bind (htrans : ∀ x y z, R x y → R y z → R x z)
    {p : Prog C σ ε α} {f : α → Prog C σ ε β}
    (hp : KeepsOk o R p) (hf : ∀ a, KeepsOk o R (f a)) :
    KeepsOk o R (p >>= f) :=
  fun s => wpOk_bind (wpOk_mono (hp s) fun a t h =>
    wpOk_mono (hf a t) fun _ _ => htrans _ _ _ h)

theorem forM (hrefl : ∀ x, R x x) (htrans : ∀ x y z, R x y → R y z → R x z)
    {f : α → Prog C σ ε Unit} (hf : ∀ a, KeepsOk o R (f a)) :
    ∀ as : List α, KeepsOk o R (as.forM f) := by
  intro as
  induction as with
  | nil => exact KeepsOk.pure hrefl ()
  | cons a as ih => exact KeepsOk.bind htrans (hf a) fun _ => ih

end KeepsOk

/-! ## Programs that always return a value -/

/-- Whatever goes wrong, the program returns a value. -/
def Succeeds (o : Oracle C) (p : Prog C σ ε α) : Prop :=
  ∀ s, p.wp o s fun r _ => ∃ a, r = .ok a

namespace Succeeds

variable {o : Oracle C}

theorem pure (a : α) : Succeeds o (Pure.pure a : Prog C σ ε α) :=
  fun _ => ⟨a, rfl⟩

theorem modify (f : σ → σ) : Succeeds o (Prog.modify f : Prog C σ ε Unit) :=
  fun _ => ⟨(), rfl⟩

theorem attempt (p : Prog C σ ε α) : Succeeds o p.attempt :=
  fun s => ⟨(p o s).1, rfl⟩

theorem bind {p : Prog C σ ε α} {f : α → Prog C σ ε β}
    (hp : Succeeds o p) (hf : ∀ a, Succeeds o (f a)) :
    Succeeds o (p >>= f) := by
  intro s
  refine wp_bind_of (hp s) ?_ fun a t _ => hf a t
  rintro e t ⟨a, ha⟩
  cases ha

theorem ite {c : Prop} [Decidable c] {p q : Prog C σ ε α}
    (hp : Succeeds o p) (hq : Succeeds o q) :
    Succeeds o (if c then p else q) := by
  split
  · exact hp
  · exact hq

theorem forM {f : α → Prog C σ ε Unit} (hf : ∀ a, Succeeds o (f a)) :
    ∀ as : List α, Succeeds o (as.forM f) := by
  intro as
  induction as with
  | nil => exact Succeeds.pure ()
  | cons a as ih => exact (hf a).bind fun _ => ih

theorem foldlM {f : β → α → Prog C σ ε β} (hf : ∀ b a, Succeeds o (f b a)) :
    ∀ (as : List α) (b : β), Succeeds o (as.foldlM f b) := by
  intro as
  induction as with
  | nil => exact fun b => Succeeds.pure b
  | cons a as ih =>
      intro b
      rw [List.foldlM_cons]
      exact (hf b a).bind ih

theorem mapM {f : α → Prog C σ ε β} (hf : ∀ a, Succeeds o (f a)) :
    ∀ as : List α, Succeeds o (as.mapM f) := by
  intro as
  induction as with
  | nil => exact Succeeds.pure []
  | cons a as ih =>
      rw [List.mapM_cons]
      exact (hf a).bind fun _ => ih.bind fun _ => Succeeds.pure _

/-- A program that always returns a value ends as its value says. -/
theorem wp {p : Prog C σ ε α} (h : Succeeds o p) {s : Sys σ}
    {Q : α → Sys σ → Prop} (hQ : p.wpOk o s Q) :
    p.wp o s fun r t => ∃ a, r = .ok a ∧ Q a t := by
  obtain ⟨a, ha⟩ := h s
  exact ⟨a, ha, hQ a _ (Prod.ext ha rfl)⟩

end Succeeds

/-! ## What a program returns -/

/-- Whatever goes wrong, and from any state: if the program returns a value,
it is one with `P`. -/
def Returns (o : Oracle C) (P : α → Prop) (p : Prog C σ ε α) : Prop :=
  ∀ s, p.wp o s fun r _ => ∀ a, r = .ok a → P a

namespace Returns

variable {o : Oracle C} {P : α → Prop} {Q : β → Prop}

theorem pure {a : α} (h : P a) :
    Returns o P (Pure.pure a : Prog C σ ε α) := by
  intro s a' ha'
  exact Except.ok.inj ha' ▸ h

theorem throw (e : ε) : Returns o P (Prog.throw e : Prog C σ ε α) := by
  intro s a ha
  cases ha

theorem mono {P' : α → Prop} {p : Prog C σ ε α} (h : Returns o P p)
    (hP : ∀ a, P a → P' a) : Returns o P' p :=
  fun s => wp_mono (h s) fun _ _ hr a ha => hP a (hr a ha)

theorem mapError {p : Prog C σ ε α} (h : Returns o P p) (f : ε → ε) :
    Returns o P (p.mapError f) := by
  intro s
  refine (wp_mapError f p _).mpr (wp_mono (h s) fun r t hr a ha => ?_)
  cases r with
  | error e => cases ha
  | ok a' => exact hr a ha

/-- The result of a sequence, from what the first program returns. -/
theorem bind {p : Prog C σ ε α} {f : α → Prog C σ ε β} (hp : Returns o P p)
    (hf : ∀ a, P a → Returns o Q (f a)) : Returns o Q (p >>= f) := by
  intro s
  refine wp_bind_of (hp s) ?_ ?_
  · intro e t _ b hb
    cases hb
  · exact fun a t h => hf a (h a rfl) t

/-- The same where what the first program returns does not matter. -/
theorem bind_any {p : Prog C σ ε α} {f : α → Prog C σ ε β}
    (hf : ∀ a, Returns o Q (f a)) : Returns o Q (p >>= f) :=
  bind (P := fun _ => True) (fun _ => fun _ _ => trivial) fun a _ => hf a

theorem ite {c : Prop} [Decidable c] {p q : Prog C σ ε α}
    (hp : c → Returns o P p) (hq : ¬c → Returns o P q) :
    Returns o P (if c then p else q) := by
  split
  · next h => exact hp h
  · next h => exact hq h

end Returns

/-! ## What a program raises -/

/-- Whatever goes wrong, and from any state: if the program raises an error, it
is one with `P`. -/
def Raises (P : ε → Prop) (p : Prog C σ ε α) : Prop :=
  ∀ o s, p.wp o s fun r _ => ∀ e, r = .error e → P e

namespace Raises

variable {P : ε → Prop}

theorem of_forall (h : ∀ e, P e) (p : Prog C σ ε α) : Raises P p :=
  fun _ _ e _ => h e

theorem pure (a : α) : Raises P (Pure.pure a : Prog C σ ε α) := by
  intro o s e he
  cases he

theorem throw {e : ε} (h : P e) : Raises P (Prog.throw e : Prog C σ ε α) := by
  intro o s e' he'
  exact Except.error.inj he' ▸ h

theorem ofExcept {r : Except ε α} (h : ∀ e, r = .error e → P e) :
    Raises P (Prog.ofExcept r : Prog C σ ε α) := fun _ _ => h

/-- The errors of a call are its own and those of its answer. -/
theorem call {c : C} {err : ε} {act : σ → Except ε α × σ} (herr : P err)
    (h : ∀ w e, (act w).1 = .error e → P e) : Raises P (Prog.call c err act) := by
  intro o s
  refine wp_call_of (h s.state) (fun _ e he => ?_) fun _ e he => ?_
  · exact Except.error.inj he ▸ herr
  · exact Except.error.inj he ▸ herr

theorem query {c : C} {err : ε} {read : σ → Except ε α} (herr : P err)
    (h : ∀ w e, read w = .error e → P e) : Raises P (Prog.query c err read) :=
  call herr h

theorem bind {p : Prog C σ ε α} {f : α → Prog C σ ε β} (hp : Raises P p)
    (hf : ∀ a, Raises P (f a)) : Raises P (p >>= f) := by
  intro o s
  refine wp_bind_of (hp o s) ?_ fun a t _ => hf a o t
  intro e t h e' he'
  exact h e' (congrArg _ (Except.error.inj he'))

theorem wrapError {ε' : Type} {P : ε' → Prop} {f : ε → ε'}
    {p : Prog C σ ε α} (h : Raises (fun e => P (f e)) p) :
    Raises P (p.wrapError f) := by
  intro o s
  refine (wp_wrapError f p _).mpr (wp_mono (h o s) fun r t hr e he => ?_)
  obtain ⟨e', he', rfl⟩ := mapError_eq_error.mp he
  exact hr e' he'

theorem within {C' σ' : Type} {kind : C → C'} {get : σ' → σ}
    {set : σ → σ' → σ'} {p : Prog C σ ε α} (h : Raises P p) :
    Raises P (p.within kind get set) := fun _ _ => h _ _

theorem forM_mem {f : α → Prog C σ ε Unit} :
    ∀ {as : List α}, (∀ a ∈ as, Raises P (f a)) → Raises P (as.forM f) := by
  intro as
  induction as with
  | nil => exact fun _ => Raises.pure ()
  | cons a as ih =>
      intro h
      exact bind (h a List.mem_cons_self) fun _ =>
        ih fun b hb => h b (List.mem_cons_of_mem a hb)

end Raises

/-! ## Programs that complete in a friendly world -/

/-- Under the oracle `o` and in a world with `I`, the program returns a value and
leaves a world with `I`. -/
def Completes (o : Oracle C) (I : σ → Prop) (p : Prog C σ ε α) : Prop :=
  ∀ s, I s.state → p.wp o s fun r t => (∃ a, r = .ok a) ∧ I t.state

namespace Completes

variable {o : Oracle C} {I : σ → Prop}

theorem pure (a : α) : Completes o I (Pure.pure a : Prog C σ ε α) :=
  fun _ h => ⟨⟨a, rfl⟩, h⟩

theorem bind {p : Prog C σ ε α} {f : α → Prog C σ ε β} (hp : Completes o I p)
    (hf : ∀ a, Completes o I (f a)) : Completes o I (p >>= f) := by
  intro s hs
  refine wp_bind_of (hp s hs) ?_ fun a t h => hf a t h.2
  rintro e t ⟨⟨a, ha⟩, -⟩
  cases ha

theorem wrapError {ε' : Type} {p : Prog C σ ε α} (h : Completes o I p)
    (f : ε → ε') : Completes o I (p.wrapError f) := by
  intro s hs
  refine (wp_wrapError f p _).mpr (wp_mono (h s hs) ?_)
  rintro r t ⟨⟨a, rfl⟩, ht⟩
  exact ⟨⟨a, rfl⟩, ht⟩

/-- The invariant of the larger world is that of the part, beside what the
program does not see. -/
theorem within {C' σ' : Type} {kind : C → C'} {get : σ' → σ}
    {set : σ → σ' → σ'} {I' : σ' → Prop} {p : Prog C σ ε α}
    (h : Completes .quiet I p) (hget : ∀ w, I' w → I (get w))
    (hset : ∀ w x, I' w → I x → I' (set x w)) :
    Completes .quiet I' (p.within kind get set) := by
  intro s hs
  refine (wp_within p _).mpr (wp_mono (h _ (hget _ hs)) ?_)
  exact fun r t ht => ⟨ht.1, hset _ _ hs ht.2⟩

theorem forM_mem {f : α → Prog C σ ε Unit} :
    ∀ {as : List α}, (∀ a ∈ as, Completes o I (f a)) →
      Completes o I (as.forM f) := by
  intro as
  induction as with
  | nil => exact fun _ => Completes.pure ()
  | cons a as ih =>
      intro h
      exact bind (h a List.mem_cons_self) fun _ =>
        ih fun b hb => h b (List.mem_cons_of_mem a hb)

end Completes

end Prog

/-! ## Checks -/

/-- `if p { return err }`. -/
def refuseIf {ε : Type} (p : Prop) [Decidable p] (err : ε) : Except ε Unit :=
  if p then .error err else .ok ()

@[simp] theorem refuseIf_eq_ok {ε : Type} {p : Prop} [Decidable p] {err : ε} :
    refuseIf p err = .ok () ↔ ¬p := by
  unfold refuseIf
  by_cases hp : p
  · simp [hp]
  · simp [hp]

/-- A check in front of what is returned. -/
theorem refuseIf_bind_eq_ok {ε α : Type} {p : Prop} [Decidable p] {err : ε}
    {x : Except ε α} {a : α} :
    (refuseIf p err >>= fun _ => x) = .ok a ↔ ¬p ∧ x = .ok a := by
  rw [Prog.except_bind_eq_ok]
  constructor
  · rintro ⟨_, hcheck, h⟩
    exact ⟨refuseIf_eq_ok.mp hcheck, h⟩
  · rintro ⟨hp, h⟩
    exact ⟨(), refuseIf_eq_ok.mpr hp, h⟩

end Hdns.Verified

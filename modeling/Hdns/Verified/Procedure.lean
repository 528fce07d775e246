import Mathlib.Tactic.Common

/-!
# Procedures whose loops have no bound

A procedure acts on a state and may loop for ever.  It is followed with fuel:
each of its loops makes at most that many turns, and a procedure that needs
more gives nothing.  More fuel never changes what a procedure has given, so
`Yields` does not mention it.

## Main results

* `yields_bind`, `yields_loop` — what the parts of a procedure yield.
* `Yields.unique` — a procedure yields one result.
* `yields_loop_rec` — what holds of the last turn of a loop, and passes from
  each turn to the one before, holds of the loop.
-/

namespace Hdns.Verified

/-- A procedure on states `σ`.  `mono` says that fuel decides only whether it
is followed to its end. -/
structure Procedure (σ α : Type) where
  run : Nat → σ → Option (α × σ)
  mono : ∀ n m s r, n ≤ m → run n s = some r → run m s = some r

namespace Procedure

variable {σ α β χ : Type}

/-! ## Procedures -/

protected def pure (a : α) : Procedure σ α where
  run _ s := some (a, s)
  mono _ _ _ _ _ h := h

protected def bind (p : Procedure σ α) (f : α → Procedure σ β) :
    Procedure σ β where
  run n s := (p.run n s).bind fun r => (f r.1).run n r.2
  mono n m s r hnm h := by
    obtain ⟨x, hp, hf⟩ := Option.bind_eq_some_iff.mp h
    rw [p.mono n m s x hnm hp]
    exact (f x.1).mono n m x.2 r hnm hf

instance : Monad (Procedure σ) where
  pure := Procedure.pure
  bind := Procedure.bind

/-- At most `k` turns of a loop; `inl` goes on with another value, `inr` ends
the loop. -/
def turns (body : χ → Procedure σ (χ ⊕ β)) (n : Nat) :
    Nat → χ → σ → Option (β × σ)
  | 0, _, _ => none
  | k + 1, x, s =>
      ((body x).run n s).bind fun r =>
        match r.1 with
        | .inl y => turns body n k y r.2
        | .inr b => some (b, r.2)

theorem turns_mono (body : χ → Procedure σ (χ ⊕ β)) {n m : Nat} (hnm : n ≤ m) :
    ∀ (k l : Nat) (x : χ) (s : σ) (r : β × σ), k ≤ l →
      turns body n k x s = some r → turns body m l x s = some r := by
  intro k
  induction k with
  | zero =>
      intro l x s r _ h
      cases h
  | succ k ih =>
      intro l x s r hkl h
      obtain ⟨l, rfl⟩ : ∃ l', l = l' + 1 := ⟨l - 1, by omega⟩
      simp only [turns] at h ⊢
      obtain ⟨y, hbody, h⟩ := Option.bind_eq_some_iff.mp h
      rw [(body x).mono n m s y hnm hbody]
      show (match y.1 with
        | .inl z => turns body m l z y.2
        | .inr b => some (b, y.2)) = some r
      cases hy : y.1 with
      | inl z =>
          rw [hy] at h
          exact ih l z y.2 r (by omega) h
      | inr b =>
          rw [hy] at h
          exact h

/-- `for { ... }`, with the value that its turns hand on. -/
def loop (body : χ → Procedure σ (χ ⊕ β)) (x : χ) : Procedure σ β where
  run n s := turns body n n x s
  mono n m s r hnm h := turns_mono body hnm n m x s r hnm h

/-! ## What a procedure yields -/

/-- From `s` the procedure ends with `a`, in the state `t`. -/
def Yields (p : Procedure σ α) (s : σ) (a : α) (t : σ) : Prop :=
  ∃ n, p.run n s = some (a, t)

/-- From `s` the procedure ends. -/
def Terminates (p : Procedure σ α) (s : σ) : Prop := ∃ a t, p.Yields s a t

theorem Yields.unique {p : Procedure σ α} {s t t' : σ} {a a' : α}
    (h : p.Yields s a t) (h' : p.Yields s a' t') : a = a' ∧ t = t' := by
  obtain ⟨n, hn⟩ := h
  obtain ⟨m, hm⟩ := h'
  have hn := p.mono n (max n m) s _ (Nat.le_max_left n m) hn
  have hm := p.mono m (max n m) s _ (Nat.le_max_right n m) hm
  rw [hn] at hm
  simpa using hm

@[simp] theorem yields_pure {s t : σ} {a b : α} :
    (pure a : Procedure σ α).Yields s b t ↔ b = a ∧ t = s := by
  constructor
  · rintro ⟨n, h⟩
    obtain ⟨rfl, rfl⟩ := Prod.mk.inj (Option.some.inj h)
    exact ⟨rfl, rfl⟩
  · rintro ⟨rfl, rfl⟩
    exact ⟨0, rfl⟩

theorem yields_bind {p : Procedure σ α} {f : α → Procedure σ β} {s t : σ}
    {b : β} :
    (p >>= f).Yields s b t ↔ ∃ a u, p.Yields s a u ∧ (f a).Yields u b t := by
  constructor
  · rintro ⟨n, h⟩
    obtain ⟨⟨a, u⟩, hp, hf⟩ := Option.bind_eq_some_iff.mp h
    exact ⟨a, u, ⟨n, hp⟩, n, hf⟩
  · rintro ⟨a, u, ⟨n, hp⟩, m, hf⟩
    refine ⟨max n m, Option.bind_eq_some_iff.mpr ⟨(a, u), ?_, ?_⟩⟩
    · exact p.mono n _ s _ (Nat.le_max_left n m) hp
    · exact (f a).mono m _ u _ (Nat.le_max_right n m) hf

section Loop

variable {body : χ → Procedure σ (χ ⊕ β)} {x : χ} {s t : σ} {b : β}

theorem yields_loop :
    (loop body x).Yields s b t ↔
      (body x).Yields s (.inr b) t ∨
        ∃ y u, (body x).Yields s (.inl y) u ∧ (loop body y).Yields u b t := by
  constructor
  · rintro ⟨n, h⟩
    cases n with
    | zero => cases h
    | succ n =>
        obtain ⟨⟨r, u⟩, hbody, h⟩ := Option.bind_eq_some_iff.mp h
        cases r with
        | inl y =>
            have hrest : turns body (n + 1) (n + 1) y u = some (b, t) :=
              turns_mono body (Nat.le_refl _) n (n + 1) y u _ (by omega) h
            exact .inr ⟨y, u, ⟨n + 1, hbody⟩, n + 1, hrest⟩
        | inr c =>
            obtain ⟨rfl, rfl⟩ := Prod.mk.inj (Option.some.inj h)
            exact .inl ⟨n + 1, hbody⟩
  · rintro (⟨n, hbody⟩ | ⟨y, u, ⟨n, hbody⟩, m, hrest⟩)
    · have hbody := (body x).mono n (n + 1) s _ (by omega) hbody
      exact ⟨n + 1, Option.bind_eq_some_iff.mpr ⟨_, hbody, rfl⟩⟩
    · have hbody := (body x).mono n (max n m + 1) s _ (by omega) hbody
      refine ⟨max n m + 1, Option.bind_eq_some_iff.mpr ⟨_, hbody, ?_⟩⟩
      exact turns_mono body (by omega) m (max n m) y u _ (by omega) hrest

/-- A loop that ends has made its first turn. -/
theorem Yields.first_turn (h : (loop body x).Yields s b t) :
    ∃ r u, (body x).Yields s r u := by
  rcases yields_loop.mp h with hlast | ⟨y, u, hfirst, -⟩
  · exact ⟨_, t, hlast⟩
  · exact ⟨_, u, hfirst⟩

/-- Induction on the turns that a loop still makes. -/
theorem yields_loop_rec {P : χ → σ → Prop}
    (stop : ∀ x s, (body x).Yields s (.inr b) t → P x s)
    (go : ∀ x s y u, (body x).Yields s (.inl y) u → P y u → P x s)
    (h : (loop body x).Yields s b t) : P x s := by
  obtain ⟨n, h⟩ := h
  have hturns : ∀ k x s, turns body n k x s = some (b, t) → P x s := by
    intro k
    induction k with
    | zero =>
        intro x s h
        cases h
    | succ k ih =>
        intro x s h
        obtain ⟨⟨r, u⟩, hbody, h⟩ := Option.bind_eq_some_iff.mp h
        cases r with
        | inl y => exact go x s y u ⟨n, hbody⟩ (ih y u h)
        | inr c =>
            obtain ⟨rfl, rfl⟩ := Prod.mk.inj (Option.some.inj h)
            exact stop x s ⟨n, hbody⟩
  exact hturns n x s h

end Loop

end Procedure

end Hdns.Verified

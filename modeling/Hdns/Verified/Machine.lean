import Mathlib.Logic.Function.Basic

/-!
# Executable step machines and the runs they admit

A concurrent program is modelled throughout this package by a *machine*: a
partial step function on a state and a label, where the label carries all the
nondeterminism (which thread moves, what the environment answers).  A run is
the left fold of the step function over a list of labels, so a concrete run is
evaluated by the kernel and a property of every run is an induction on the
list.

## Main results

* `Machine.invariant` — what every step preserves, every run preserves.
* `Machine.invariant_along` — the same for the runs all of whose steps meet a
  condition on the state they are taken from.
* `Machine.along_comap` — a condition along a run given by some of the labels.

Thread pools are functions `Nat → τ` updated at one index.
-/

namespace Hdns.Verified

universe u v

/-- An executable labelled machine.  `step s a = none` says that the label `a`
is not enabled in `s`. -/
structure Machine (σ : Type u) (α : Type v) where
  step : σ → α → Option σ

namespace Machine

variable {σ : Type u} {α : Type v} (M : Machine σ α)

/-- The state a list of labels leads to, `none` as soon as one of them is not
enabled. -/
def run (s : σ) (as : List α) : Option σ := as.foldlM M.step s

/-- Every step of the run is taken from a state that meets `cond` with the
label of the step. -/
def Along (cond : σ → α → Prop) : σ → List α → Prop
  | _, [] => True
  | s, a :: as =>
      cond s a ∧
        match M.step s a with
        | none => True
        | some s' => Along cond s' as

@[simp] theorem run_nil (s : σ) : M.run s [] = some s := rfl

theorem run_cons (s : σ) (a : α) (as : List α) :
    M.run s (a :: as) = (M.step s a).bind fun s' => M.run s' as :=
  List.foldlM_cons

/-- A run over `a :: as` is a first step and a run over `as`. -/
theorem run_cons_eq_some {s t : σ} {a : α} {as : List α} :
    M.run s (a :: as) = some t ↔
      ∃ s', M.step s a = some s' ∧ M.run s' as = some t := by
  rw [run_cons, Option.bind_eq_some_iff]

/-- The condition along `a :: as`, once the first step is known. -/
theorem along_cons {cond : σ → α → Prop} {s s' : σ} {a : α} {as : List α}
    (hstep : M.step s a = some s') :
    M.Along cond s (a :: as) ↔ cond s a ∧ M.Along cond s' as := by
  simp [Along, hstep]

/-- A condition every label of a run meets in every state. -/
theorem along_of_mem {cond : σ → α → Prop} :
    ∀ (as : List α) (s : σ), (∀ a ∈ as, ∀ s, cond s a) → M.Along cond s as := by
  intro as
  induction as with
  | nil => exact fun _ _ => trivial
  | cons a as ih =>
      intro s h
      refine ⟨h a List.mem_cons_self s, ?_⟩
      cases M.step s a with
      | none => trivial
      | some s' => exact ih s' fun a ha => h a (List.mem_cons_of_mem _ ha)

/-- A condition every label meets in every state holds along every run. -/
theorem along_of_forall {cond : σ → α → Prop} (h : ∀ s a, cond s a)
    (as : List α) (s : σ) : M.Along cond s as :=
  M.along_of_mem as s fun a _ s => h s a

/-- A condition that implies another one along a run. -/
theorem along_mono {cond cond' : σ → α → Prop}
    (h : ∀ s a, cond s a → cond' s a) :
    ∀ (as : List α) (s : σ), M.Along cond s as → M.Along cond' s as := by
  intro as
  induction as with
  | nil => exact fun _ _ => trivial
  | cons a as ih =>
      rintro s ⟨hs, hrest⟩
      refine ⟨h s a hs, ?_⟩
      cases hstep : M.step s a with
      | none => trivial
      | some s' =>
          rw [hstep] at hrest
          exact ih s' hrest

/-- Two conditions along a run. -/
theorem along_and {cond cond' : σ → α → Prop} :
    ∀ (as : List α) (s : σ), M.Along cond s as → M.Along cond' s as →
      M.Along (fun s a => cond s a ∧ cond' s a) s as := by
  intro as
  induction as with
  | nil => exact fun _ _ _ => trivial
  | cons a as ih =>
      rintro s ⟨hs, hrest⟩ ⟨hs', hrest'⟩
      refine ⟨⟨hs, hs'⟩, ?_⟩
      cases hstep : M.step s a with
      | none => trivial
      | some s' =>
          rw [hstep] at hrest hrest'
          exact ih s' hrest hrest'

/-- A run over `as ++ bs` is a run over `as` and then one over `bs`. -/
theorem run_append {s t u : σ} {as bs : List α} (has : M.run s as = some t)
    (hbs : M.run t bs = some u) : M.run s (as ++ bs) = some u := by
  rw [run, List.foldlM_append]
  exact Option.bind_eq_some_iff.mpr ⟨t, has, hbs⟩

theorem along_append {cond : σ → α → Prop} {bs : List α} :
    ∀ (as : List α) (s t : σ), M.Along cond s as → M.run s as = some t →
      M.Along cond t bs → M.Along cond s (as ++ bs) := by
  intro as
  induction as with
  | nil =>
      intro s t _ hrun hbs
      rw [run_nil, Option.some.injEq] at hrun
      exact hrun ▸ hbs
  | cons a as ih =>
      intro s t has hrun hbs
      obtain ⟨s', hstep, hrest⟩ := M.run_cons_eq_some.mp hrun
      obtain ⟨hcond, htail⟩ := (M.along_cons hstep).mp has
      exact (M.along_cons hstep).mpr ⟨hcond, ih s' t htail hrest hbs⟩

/-- Every step of a run is enabled. -/
theorem along_of_run : ∀ (as : List α) (s t : σ), M.run s as = some t →
    M.Along (fun s a => ∃ s', M.step s a = some s') s as := by
  intro as
  induction as with
  | nil => exact fun _ _ _ => trivial
  | cons a as ih =>
      intro s t hrun
      obtain ⟨s', hstep, hrest⟩ := M.run_cons_eq_some.mp hrun
      exact (M.along_cons hstep).mpr ⟨⟨s', hstep⟩, ih s' t hrest⟩

/-- A condition that can be decided can be decided along a run. -/
instance along_decidable {cond : σ → α → Prop}
    [∀ s a, Decidable (cond s a)] :
    ∀ (s : σ) (as : List α), Decidable (M.Along cond s as)
  | _, [] => .isTrue trivial
  | s, a :: as =>
      match h : M.step s a with
      | none => decidable_of_iff (cond s a) (by simp [Along, h])
      | some s' =>
          have : Decidable (M.Along cond s' as) := along_decidable s' as
          decidable_of_iff (cond s a ∧ M.Along cond s' as)
            (by simp [Along, h])

/-! ## Runs of some of the labels -/

/-- The machine with the labels `f` gives. -/
def comap {β : Type v} (f : β → α) : Machine σ β := ⟨fun s b => M.step s (f b)⟩

theorem run_comap {β : Type v} (f : β → α) (s : σ) (bs : List β) :
    (M.comap f).run s bs = M.run s (bs.map f) := by
  rw [run, run, List.foldlM_map]
  rfl

theorem along_comap {β : Type v} (f : β → α) {cond : σ → α → Prop} :
    ∀ (bs : List β) (s : σ),
      (M.comap f).Along (fun s b => cond s (f b)) s bs →
        M.Along cond s (bs.map f) := by
  intro bs
  induction bs with
  | nil => exact fun _ _ => trivial
  | cons b bs ih =>
      rintro s ⟨hs, hrest⟩
      refine ⟨hs, ?_⟩
      change match M.step s (f b) with
        | none => True
        | some s' => (M.comap f).Along _ s' bs at hrest
      cases hstep : M.step s (f b) with
      | none => trivial
      | some s' =>
          rw [hstep] at hrest
          exact ih s' hrest

/-! ## Invariants -/

section Invariant

variable {M} {Inv : σ → Prop}

/-- **Run lemma.**  What every step that meets the condition preserves, every
run whose steps meet the condition preserves. -/
theorem invariant_along {cond : σ → α → Prop}
    (hstep : ∀ s a s', Inv s → cond s a → M.step s a = some s' → Inv s') :
    ∀ (as : List α) (s s' : σ),
      Inv s → M.Along cond s as → M.run s as = some s' → Inv s' := by
  intro as
  induction as with
  | nil =>
      intro s s' hs _ hrun
      simp only [run_nil, Option.some.injEq] at hrun
      exact hrun ▸ hs
  | cons a as ih =>
      intro s s' hs halong hrun
      obtain ⟨t, ht, hrest⟩ := M.run_cons_eq_some.mp hrun
      obtain ⟨hcond, htail⟩ := (M.along_cons ht).mp halong
      exact ih t s' (hstep s a t hs hcond ht) htail hrest

/-- The invariant holds in every state a step of the run is taken from. -/
theorem along_invariant {cond : σ → α → Prop}
    (hstep : ∀ s a s', Inv s → cond s a → M.step s a = some s' → Inv s') :
    ∀ (as : List α) (s : σ), Inv s → M.Along cond s as →
      M.Along (fun s a => Inv s ∧ cond s a) s as := by
  intro as
  induction as with
  | nil => exact fun _ _ _ => trivial
  | cons a as ih =>
      rintro s hs ⟨hcond, hrest⟩
      refine ⟨⟨hs, hcond⟩, ?_⟩
      cases ht : M.step s a with
      | none => trivial
      | some t =>
          rw [ht] at hrest
          exact ih t (hstep s a t hs hcond ht) hrest

/-- What every step preserves, every run preserves. -/
theorem invariant
    (hstep : ∀ s a s', Inv s → M.step s a = some s' → Inv s') :
    ∀ (as : List α) (s s' : σ), Inv s → M.run s as = some s' → Inv s' := by
  intro as s s' hs hrun
  have halong : M.Along (fun _ _ => True) s as :=
    M.along_of_forall (fun _ _ => trivial) as s
  exact invariant_along (fun s a s' h _ => hstep s a s' h) as s s' hs halong
    hrun

end Invariant

end Machine

/-! ## Thread pools -/

/-- The local states of all threads; a thread that makes no call sits in the
idle state of `τ`. -/
abbrev Pool (τ : Type u) := Nat → τ

namespace Pool

variable {τ : Type u}

/-- Thread `i` moves to the local state `t`. -/
def set (ts : Pool τ) (i : Nat) (t : τ) : Pool τ := Function.update ts i t

@[simp] theorem set_self (ts : Pool τ) (i : Nat) (t : τ) : ts.set i t i = t := by
  simp [set]

theorem set_ne (ts : Pool τ) {i j : Nat} (t : τ) (h : j ≠ i) :
    ts.set i t j = ts j := by
  simp [set, h]

/-- A property of every thread after a move is the property of the moved
thread and of all the others. -/
theorem forall_set {P : Nat → τ → Prop} (ts : Pool τ) (i : Nat) (t : τ) :
    (∀ j, P j (ts.set i t j)) ↔ P i t ∧ ∀ j, j ≠ i → P j (ts j) :=
  Function.forall_update_iff ts P

end Pool

end Hdns.Verified

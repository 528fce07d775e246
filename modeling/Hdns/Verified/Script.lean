import Hdns.Verified.Effect
import Hdns.Verified.Overwrite

/-!
# Scripts: writes with checks between them

A script is a list of steps.  A step writes a cell, which the outside world can
refuse, or stops the script with an error, or does nothing.  What a script does
to the cells is then a list of writes, and whether it stops is a property of the
list of steps, not of the cells.

## Main results

* `runAll_ends` — under any faults, a script ends with all its writes carried
  out, or with the error of a write.
* `runAll_quiet` — without faults it ends the first way.
* `stopped_eq_none_iff`, `writes_eq_nil_iff` — the kinds of the steps decide
  whether a script stops, and whether it has written before.
-/

namespace Hdns.Verified.Script

open Hdns.Verified.Overwrite

variable {C ε κ ν : Type} [DecidableEq κ]

/-- A step of a script; `err` is what a refused write is reported as. -/
inductive Step (ε κ ν : Type) where
  | skip
  | write (err : ε) (key : κ) (value : ν)
  | stop (err : ε)

/-- The writes in front of the first stop. -/
def writes : List (Step ε κ ν) → List (κ × ν)
  | [] => []
  | .skip :: steps => writes steps
  | .write _ key value :: steps => (key, value) :: writes steps
  | .stop _ :: _ => []

/-- The error of the first stop. -/
def stopped : List (Step ε κ ν) → Option ε
  | [] => none
  | .stop err :: _ => some err
  | _ :: steps => stopped steps

omit [DecidableEq κ] in
@[simp] theorem writes_skip (steps : List (Step ε κ ν)) :
    writes (.skip :: steps) = writes steps := rfl

omit [DecidableEq κ] in
@[simp] theorem writes_write (err : ε) (key : κ) (value : ν)
    (steps : List (Step ε κ ν)) :
    writes (.write err key value :: steps) = (key, value) :: writes steps := rfl

/-- One step; a write is a call of kind `c`. -/
def Step.run (c : C) : Step ε κ ν → Prog C (κ → Option ν) ε Unit
  | .skip => pure ()
  | .write err key value => .call c err fun cells =>
      (.ok (), Function.update cells key (some value))
  | .stop err => Prog.throw err

def runAll (c : C) (steps : List (Step ε κ ν)) :
    Prog C (κ → Option ν) ε Unit := steps.forM (Step.run c)

theorem runAll_cons (c : C) (step : Step ε κ ν) (steps : List (Step ε κ ν)) :
    runAll c (step :: steps) = step.run c >>= fun _ => runAll c steps := rfl

theorem runAll_append (c : C) (steps steps' : List (Step ε κ ν)) :
    runAll c (steps ++ steps') =
      runAll c steps >>= fun _ => runAll c steps' := by
  induction steps with
  | nil => rfl
  | cons step steps ih =>
      rw [List.cons_append, runAll_cons, runAll_cons, ih, Prog.bind_assoc_eq]

/-- A loop whose body is a step is a script. -/
theorem forM_eq_runAll (c : C) {α : Type} {step : α → Step ε κ ν}
    {body : α → Prog C (κ → Option ν) ε Unit}
    (h : ∀ a, body a = (step a).run c) (as : List α) :
    as.forM body = runAll c (as.map step) := by
  induction as with
  | nil => rfl
  | cons a as ih =>
      rw [List.map_cons, runAll_cons, ← h, ← ih]
      rfl

/-- The error is that of a write of the script. -/
def Refusal (steps : List (Step ε κ ν)) (err : ε) : Prop :=
  ∃ key value, Step.write err key value ∈ steps

/-- The script has got to its end or to its first stop, with one call for each
of the writes. -/
structure Finished (steps : List (Step ε κ ν)) (s t : Sys (κ → Option ν)) :
    Prop where
  cells : t.state = carriedOut (writes steps) s.state
  clock : t.clock = s.clock + (writes steps).length

/-- **How a script ends**: with the error of a write, or finished. -/
theorem runAll_ends (c : C) (o : Oracle C) :
    ∀ (steps : List (Step ε κ ν)) (s : Sys (κ → Option ν)),
      (runAll c steps).wp o s fun r t =>
        (∃ err, r = .error err ∧ Refusal steps err) ∨
          r = (stopped steps).elim (.ok ()) .error ∧ Finished steps s t := by
  intro steps
  induction steps with
  | nil => exact fun s => .inr ⟨rfl, rfl, rfl⟩
  | cons step steps ih =>
      intro s
      have hlater : ∀ err, Refusal steps err → Refusal (step :: steps) err := by
        rintro err ⟨key, value, hmem⟩
        exact ⟨key, value, List.mem_cons_of_mem step hmem⟩
      cases step with
      | skip =>
          refine Prog.wp_mono (ih s) ?_
          rintro r t (⟨err, hr, href⟩ | ⟨hr, hcells, hclock⟩)
          · exact .inl ⟨err, hr, hlater err href⟩
          · exact .inr ⟨hr, hcells, hclock⟩
      | stop err => exact .inr ⟨rfl, rfl, rfl⟩
      | write err key value =>
          have hcall : (Step.run c (.write err key value)).wp o s fun r t =>
              r = .error err ∨ r = .ok () ∧
                t = ⟨Function.update s.state key (some value), s.clock + 1⟩ := by
            unfold Step.run
            exact Prog.wp_call_of (.inr ⟨rfl, rfl⟩) (fun _ => .inl rfl)
              fun _ => .inl rfl
          refine Prog.wp_bind_of hcall ?_ ?_
          · rintro e t (hr | ⟨hr, -⟩)
            · obtain rfl := Except.error.inj hr
              exact .inl ⟨e, rfl, key, value, List.mem_cons_self⟩
            · cases hr
          · rintro u t (hr | ⟨-, rfl⟩)
            · cases hr
            refine Prog.wp_mono (ih _) ?_
            rintro r t (⟨err, hr, href⟩ | ⟨hr, hcells, hclock⟩)
            · exact .inl ⟨err, hr, hlater err href⟩
            · refine .inr ⟨hr, hcells, hclock.trans ?_⟩
              simp only [writes, List.length_cons]
              omega

/-- Without faults no write is refused. -/
theorem runAll_quiet (c : C) (steps : List (Step ε κ ν)) :
    ∀ s : Sys (κ → Option ν), (runAll c steps).wp .quiet s fun r t =>
      r = (stopped steps).elim (.ok ()) .error ∧ Finished steps s t := by
  induction steps with
  | nil => exact fun s => ⟨rfl, rfl, rfl⟩
  | cons step steps ih =>
      intro s
      cases step with
      | skip =>
          obtain ⟨hr, hcells, hclock⟩ := ih s
          exact ⟨hr, hcells, hclock⟩
      | stop err => exact ⟨rfl, rfl, rfl⟩
      | write err key value =>
          obtain ⟨hr, hcells, hclock⟩ :=
            ih ⟨Function.update s.state key (some value), s.clock + 1⟩
          refine ⟨hr, hcells, hclock.trans ?_⟩
          simp only [writes, List.length_cons]
          omega

omit [DecidableEq κ] in
theorem mem_of_stopped {steps : List (Step ε κ ν)} {err : ε}
    (h : stopped steps = some err) : Step.stop err ∈ steps := by
  induction steps with
  | nil => cases h
  | cons step steps ih =>
      cases step with
      | skip => exact List.mem_cons_of_mem _ (ih h)
      | write e key value => exact List.mem_cons_of_mem _ (ih h)
      | stop e =>
          obtain rfl := Option.some.inj h
          exact List.mem_cons_self

/-! ## The kinds of the steps -/

/-- Whether a step writes or stops; a step that does nothing is neither. -/
def Step.kind : Step ε κ ν → Option Bool
  | .skip => none
  | .write _ _ _ => some true
  | .stop _ => some false

/-- The kinds of the steps that write or stop. -/
def kinds (steps : List (Step ε κ ν)) : List Bool := steps.filterMap Step.kind

section Kinds

omit [DecidableEq κ]

/-- A script ends when none of its steps is a stop. -/
theorem stopped_eq_none_iff (steps : List (Step ε κ ν)) :
    stopped steps = none ↔ ∀ b ∈ kinds steps, b = true := by
  induction steps with
  | nil => simp [stopped, kinds]
  | cons step steps ih =>
      cases step with
      | skip => exact ih
      | write err key value => simpa [stopped, kinds, Step.kind] using ih
      | stop err => simp [stopped, kinds, Step.kind]

/-- A script writes nothing when it does not begin with a write. -/
theorem writes_eq_nil_iff (steps : List (Step ε κ ν)) :
    writes steps = [] ↔ (kinds steps).head? ≠ some true := by
  induction steps with
  | nil => simp [writes, kinds]
  | cons step steps ih =>
      cases step with
      | skip => exact ih
      | write err key value => simp [writes, kinds, Step.kind]
      | stop err => simp [writes, kinds, Step.kind]

end Kinds

end Hdns.Verified.Script

import Mathlib.Algebra.Order.BigOperators.Group.Finset
import Hdns.Verified.Machine

/-!
# Workers with a slot each

A caller makes a list with a slot for each of its jobs, starts one worker after
the other, and waits until all of them have ended.  The statements of a worker
change the worker's own slot and depend on nothing else, so the order in which
the workers take their turns cannot be seen in the end.

## Main results

* `slots_of_joined` — what the list holds when the caller goes on.
* `exists_joined` — from wherever a run has come, the workers can end.
* `length_run` — how many statements it takes.
-/

namespace Hdns.Verified.ForkJoin

variable {β : Type}

/-- A job: what it does to its slot, statement by statement. -/
abbrev Job (β : Type) := List (β → β)

/-- What a job makes of a slot. -/
def outcome (job : Job β) (b : β) : β := job.foldl (fun b f => f b) b

/-- The workers under way. -/
structure State (β : Type) where
  /-- How many workers were started. -/
  started : Nat
  /-- What each worker has left to do. -/
  left : Pool (Job β)
  slots : List β

/-- The caller starts the next worker, or a worker carries out a statement. -/
inductive Label where
  | spawn
  | work (i : Nat)
  deriving DecidableEq

/-- The first statement of worker `i`, carried out. -/
def State.work (s : State β) (i : Nat) : Option (State β) :=
  match s.left i with
  | [] => none
  | f :: rest =>
      some { s with left := s.left.set i rest, slots := s.slots.modify i f }

/-- The machine of a list of jobs. -/
def forkJoin (jobs : List (Job β)) : Machine (State β) Label where
  step s
    | .spawn =>
        if s.started < jobs.length then
          some { s with started := s.started + 1 }
        else none
    | .work i => if i < s.started then s.work i else none

/-- Nothing is started, and every slot holds `zero`. -/
def start (zero : β) (jobs : List (Job β)) : State β where
  started := 0
  left i := (jobs[i]?).getD []
  slots := List.replicate jobs.length zero

/-- The caller goes on: all workers were started and have ended. -/
def Joined (jobs : List (Job β)) (s : State β) : Prop :=
  s.started = jobs.length ∧ ∀ i, s.left i = []

/-! ## Turns do not matter -/

/-- What is left of a job leads its slot to the outcome of the whole job. -/
structure Inv (zero : β) (jobs : List (Job β)) (s : State β) : Prop where
  within : s.started ≤ jobs.length
  idle : ∀ i, jobs.length ≤ i → s.left i = []
  ends : ∀ i : Nat, (s.slots[i]?).map (outcome (s.left i)) =
    (jobs[i]?).map fun job => outcome job zero

theorem inv_start (zero : β) (jobs : List (Job β)) :
    Inv zero jobs (start zero jobs) where
  within := Nat.zero_le _
  idle i hi := by
    show (jobs[i]?).getD [] = []
    rw [List.getElem?_eq_none hi]
    rfl
  ends i := by
    show ((List.replicate jobs.length zero)[i]?).map
      (outcome ((jobs[i]?).getD [])) = _
    rw [List.getElem?_replicate]
    by_cases hi : i < jobs.length
    · simp [hi]
    · simp [hi]

section Step

variable {zero : β} {jobs : List (Job β)} {s s' : State β}

theorem work_eq {i : Nat} (h : s.work i = some s') :
    ∃ f rest, s.left i = f :: rest ∧
      s' = { s with left := s.left.set i rest, slots := s.slots.modify i f } := by
  unfold State.work at h
  cases hleft : s.left i with
  | nil => simp [hleft] at h
  | cons f rest =>
      rw [hleft] at h
      exact ⟨f, rest, rfl, (Option.some.inj h).symm⟩

theorem inv_work {i : Nat} (h : Inv zero jobs s) (hwork : s.work i = some s') :
    Inv zero jobs s' := by
  obtain ⟨f, rest, hleft, rfl⟩ := work_eq hwork
  refine ⟨h.within, fun j hj => ?_, fun j => ?_⟩
  · have hji : j ≠ i := by
      intro hji
      have hnil := h.idle j hj
      rw [hji, hleft] at hnil
      simp at hnil
    show s.left.set i rest j = []
    rw [Pool.set_ne _ _ hji]
    exact h.idle j hj
  · show ((s.slots.modify i f)[j]?).map (outcome (s.left.set i rest j)) = _
    rw [← h.ends j, List.getElem?_modify]
    by_cases hij : i = j
    · subst hij
      simp only [Pool.set_self, hleft, if_pos, Option.map_eq_map,
        Option.map_map]
      rfl
    · simp [Pool.set_ne _ _ (Ne.symm hij), hij]

theorem inv_step {a : Label} (h : Inv zero jobs s)
    (hstep : (forkJoin jobs).step s a = some s') : Inv zero jobs s' := by
  cases a with
  | spawn =>
      simp only [forkJoin] at hstep
      split at hstep
      · next hlt =>
        obtain rfl := Option.some.inj hstep
        exact ⟨hlt, h.idle, h.ends⟩
      · simp at hstep
  | work i =>
      simp only [forkJoin] at hstep
      split at hstep
      · exact inv_work h hstep
      · simp at hstep

end Step

section Runs

variable {zero : β} {jobs : List (Job β)} {s : State β}

theorem inv_run {as : List Label}
    (hrun : (forkJoin jobs).run (start zero jobs) as = some s) :
    Inv zero jobs s :=
  Machine.invariant (fun _ _ _ => inv_step) as _ _ (inv_start zero jobs) hrun

theorem slots_of_inv (h : Inv zero jobs s) (hjoined : Joined jobs s) :
    s.slots = jobs.map fun job => outcome job zero := by
  apply List.ext_getElem?
  intro i
  rw [List.getElem?_map, ← h.ends i, hjoined.2 i]
  cases s.slots[i]? with
  | none => rfl
  | some b => rfl

/-- **Turns do not matter.**  When the caller goes on, each slot holds what its
job makes of it alone. -/
theorem slots_of_joined {as : List Label}
    (hrun : (forkJoin jobs).run (start zero jobs) as = some s)
    (hjoined : Joined jobs s) : s.slots = jobs.map fun job => outcome job zero :=
  slots_of_inv (inv_run hrun) hjoined

end Runs

/-! ## The workers end -/

/-- The statements that are left, those that start a worker included. -/
def size (jobs : List (Job β)) (s : State β) : Nat :=
  (jobs.length - s.started) +
    ∑ i ∈ Finset.range jobs.length, (s.left i).length

section Size

variable {zero : β} {jobs : List (Job β)} {s s' : State β}

/-- A worker with something left to do is one of the list. -/
theorem lt_of_left (h : Inv zero jobs s) {i : Nat} {f : β → β} {rest : Job β}
    (hleft : s.left i = f :: rest) : i < jobs.length := by
  by_contra hi
  have hnil := h.idle i (Nat.not_lt.mp hi)
  simp [hleft] at hnil

theorem size_step {a : Label} (h : Inv zero jobs s)
    (hstep : (forkJoin jobs).step s a = some s') :
    size jobs s' + 1 = size jobs s := by
  cases a with
  | spawn =>
      simp only [forkJoin] at hstep
      split at hstep
      · next hlt =>
        obtain rfl := Option.some.inj hstep
        simp only [size]
        omega
      · simp at hstep
  | work i =>
      simp only [forkJoin] at hstep
      split at hstep
      · obtain ⟨f, rest, hleft, rfl⟩ := work_eq hstep
        have hi : i ∈ Finset.range jobs.length :=
          Finset.mem_range.mpr (lt_of_left h hleft)
        have hothers : ∀ j ∈ (Finset.range jobs.length).erase i,
            (s.left.set i rest j).length = (s.left j).length := by
          intro j hj
          rw [Pool.set_ne _ _ (Finset.ne_of_mem_erase hj)]
        simp only [size]
        rw [← Finset.add_sum_erase _ _ hi, ← Finset.add_sum_erase _ _ hi,
          Finset.sum_congr rfl hothers, Pool.set_self, hleft,
          List.length_cons]
        omega
      · simp at hstep

/-- Jobs of at most `k` statements. -/
theorem size_start_le {k : Nat} (h : ∀ job ∈ jobs, job.length ≤ k) :
    size jobs (start zero jobs) ≤ jobs.length * (k + 1) := by
  have hshort : ∀ i ∈ Finset.range jobs.length,
      ((jobs[i]?).getD []).length ≤ k := by
    intro i hi
    rw [List.getElem?_eq_getElem (Finset.mem_range.mp hi)]
    exact h _ (List.getElem_mem _)
  have hsum := Finset.sum_le_card_nsmul _ _ _ hshort
  simp only [Finset.card_range, Nat.nsmul_eq_mul] at hsum
  simp only [size, start, Nat.mul_succ]
  omega

/-- Unless the caller goes on, somebody can. -/
theorem goes_on (h : Inv zero jobs s) (hjoined : ¬Joined jobs s) :
    ∃ a s', (forkJoin jobs).step s a = some s' := by
  by_cases hspawn : s.started < jobs.length
  · exact ⟨.spawn, _, if_pos hspawn⟩
  · have hall : s.started = jobs.length :=
      Nat.le_antisymm h.within (Nat.not_lt.mp hspawn)
    obtain ⟨i, hi⟩ : ∃ i, s.left i ≠ [] := by
      by_contra hnone
      push Not at hnone
      exact hjoined ⟨hall, hnone⟩
    obtain ⟨f, rest, hleft⟩ := List.exists_cons_of_ne_nil hi
    have hlt : i < s.started := hall ▸ lt_of_left h hleft
    refine ⟨.work i, { s with
      left := s.left.set i rest
      slots := s.slots.modify i f }, ?_⟩
    simp [forkJoin, hlt, State.work, hleft]

/-- The size of a joined state. -/
theorem size_of_joined (hjoined : Joined jobs s) : size jobs s = 0 := by
  simp [size, hjoined.1, hjoined.2]

theorem exists_joined_of_inv (h : Inv zero jobs s) :
    ∃ bs s', (forkJoin jobs).run s bs = some s' ∧ Joined jobs s' := by
  induction hn : size jobs s generalizing s with
  | zero =>
      by_cases hjoined : Joined jobs s
      · exact ⟨[], s, rfl, hjoined⟩
      · obtain ⟨a, s', hstep⟩ := goes_on h hjoined
        have hsize := size_step h hstep
        omega
  | succ n ih =>
      by_cases hjoined : Joined jobs s
      · exact ⟨[], s, rfl, hjoined⟩
      · obtain ⟨a, t, hstep⟩ := goes_on h hjoined
        have hsize := size_step h hstep
        obtain ⟨bs, s', hrun, hend⟩ := ih (inv_step h hstep) (by omega)
        exact ⟨a :: bs, s',
          (Machine.run_cons_eq_some _).mpr ⟨t, hstep, hrun⟩, hend⟩

/-- **The workers can end**, however far a run has come. -/
theorem exists_joined {as : List Label}
    (hrun : (forkJoin jobs).run (start zero jobs) as = some s) :
    ∃ bs s', (forkJoin jobs).run s bs = some s' ∧ Joined jobs s' :=
  exists_joined_of_inv (inv_run hrun)

theorem size_run : ∀ (as : List Label) (s s' : State β), Inv zero jobs s →
    (forkJoin jobs).run s as = some s' →
      size jobs s' + as.length = size jobs s := by
  intro as
  induction as with
  | nil =>
      intro s s' _ hrun
      obtain rfl := Option.some.inj hrun
      simp
  | cons a as ih =>
      intro s s' h hrun
      obtain ⟨t, hstep, hrest⟩ := (Machine.run_cons_eq_some _).mp hrun
      have hsize := size_step h hstep
      have hrest' := ih t s' (inv_step h hstep) hrest
      simp only [List.length_cons]
      omega

/-- **How long it takes**: a run is no longer than the jobs, and it is that long
when the caller goes on. -/
theorem length_run {as : List Label}
    (hrun : (forkJoin jobs).run (start zero jobs) as = some s) :
    as.length ≤ size jobs (start zero jobs) ∧
      (Joined jobs s → as.length = size jobs (start zero jobs)) := by
  have hsize := size_run as _ _ (inv_start zero jobs) hrun
  refine ⟨by omega, fun hjoined => ?_⟩
  rw [size_of_joined hjoined] at hsize
  omega

end Size

end Hdns.Verified.ForkJoin

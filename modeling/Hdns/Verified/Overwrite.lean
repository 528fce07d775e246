import Hdns.Verified.Machine
import Mathlib.Data.List.Induction

/-!
# Concurrent batches of overwrites

A batch writes a list of cells, one after the other, each write replacing what
the cell holds.  Batches run at the same time, with no lock and no common
commit, so in general the cells end up with the writes of different batches.

When all batches write the same cells in the same order, it is enough that no
write is *late*: a batch does not write a cell that a batch begun after it has
already written.  Then every cell ends with the batch that began last.

## Main results

* `outcome` — what a batch leaves in a cell.
* `inv_step` — what batches in order preserve.
* `Inv.one_batch` — once all batches have ended, all cells come from one of
  them.
-/

namespace Hdns.Verified

universe u v

namespace Overwrite

variable {κ : Type u} {ν : Type v} [DecidableEq κ]

/-! ## One batch -/

/-- What a list of writes leaves in a cell: its last write there. -/
def outcome (ws : List (κ × ν)) (p : κ) : Option ν :=
  ws.foldl (fun r w => if w.1 = p then some w.2 else r) none

/-- The cells after a list of writes. -/
def carriedOut (ws : List (κ × ν)) (cells : κ → Option ν) : κ → Option ν :=
  ws.foldl (fun c w => Function.update c w.1 (some w.2)) cells

theorem outcome_concat (ws : List (κ × ν)) (w : κ × ν) (p : κ) :
    outcome (ws ++ [w]) p = if w.1 = p then some w.2 else outcome ws p := by
  rw [outcome, List.foldl_append]
  rfl

theorem carriedOut_concat (ws : List (κ × ν)) (w : κ × ν)
    (cells : κ → Option ν) :
    carriedOut (ws ++ [w]) cells =
      Function.update (carriedOut ws cells) w.1 (some w.2) := by
  rw [carriedOut, List.foldl_append]
  rfl

/-- A cell that is not written keeps what it holds. -/
theorem carriedOut_apply (ws : List (κ × ν)) (cells : κ → Option ν) (p : κ) :
    carriedOut ws cells p = (outcome ws p).or (cells p) := by
  induction ws using List.reverseRecOn with
  | nil => rfl
  | append_singleton ws w ih =>
      rw [carriedOut_concat, outcome_concat]
      by_cases hp : w.1 = p
      · subst hp
        rw [Function.update_self, if_pos rfl]
        rfl
      · rw [Function.update_of_ne (Ne.symm hp), if_neg hp, ih]

/-- A cell that no write is about. -/
theorem outcome_eq_none_iff {ws : List (κ × ν)} {p : κ} :
    outcome ws p = none ↔ ∀ w ∈ ws, w.1 ≠ p := by
  induction ws using List.reverseRecOn with
  | nil => simp [outcome]
  | append_singleton ws w ih =>
      rw [outcome_concat]
      by_cases hp : w.1 = p
      · have hlast : w ∈ ws ++ [w] := by simp
        rw [if_pos hp]
        exact iff_of_false (Option.some_ne_none _) fun h => h w hlast hp
      · rw [if_neg hp, ih]
        simp [or_imp, forall_and, hp]

/-- What is left in a cell has been written there. -/
theorem mem_of_outcome {ws : List (κ × ν)} {p : κ} {v : ν}
    (h : outcome ws p = some v) : (p, v) ∈ ws := by
  induction ws using List.reverseRecOn with
  | nil => cases h
  | append_singleton ws w ih =>
      rw [outcome_concat] at h
      by_cases hp : w.1 = p
      · rw [if_pos hp] at h
        have hw : (p, v) = w := Prod.ext hp.symm (Option.some.inj h).symm
        simp [hw]
      · rw [if_neg hp] at h
        exact List.mem_append_left _ (ih h)

/-- A cell that occurs once among the writes holds what is written there. -/
theorem outcome_of_mem {ws : List (κ × ν)} (hnodup : (ws.map Prod.fst).Nodup)
    {w : κ × ν} (hw : w ∈ ws) : outcome ws w.1 = some w.2 := by
  induction ws using List.reverseRecOn with
  | nil => cases hw
  | append_singleton ws w' ih =>
      rw [outcome_concat]
      rw [List.map_append, List.nodup_append] at hnodup
      obtain ⟨hws, _, hdisjoint⟩ := hnodup
      rcases List.mem_append.mp hw with hold | hnew
      · have hne : w'.1 ≠ w.1 := fun heq => hdisjoint w.1
          (List.mem_map_of_mem hold) w'.1 (List.mem_singleton_self _) heq.symm
        rw [if_neg hne]
        exact ih hws hold
      · obtain rfl := List.mem_singleton.mp hnew
        exact if_pos rfl

/-! ## Batches at the same time -/

/-- A batch: the writes it has done and has still to do, its rank among the
batches by their first write, and whether it has given up. -/
structure Job (κ : Type u) (ν : Type v) where
  done : List (κ × ν)
  todo : List (κ × ν)
  rank : Option Nat
  aborted : Bool

/-- The cells, the batches, and the rank of the next one to begin. -/
structure State (κ : Type u) (ν : Type v) where
  cells : κ → Option ν
  jobs : Nat → Option (Job κ ν)
  next : Nat

/-- Before any batch. -/
def start (cells : κ → Option ν) : State κ ν := ⟨cells, fun _ => none, 0⟩

/-- A label: a batch arrives, carries out its next write, or gives up. -/
inductive Label (κ : Type u) (ν : Type v) where
  | arrive (i : Nat) (ws : List (κ × ν))
  | write (i : Nat)
  | abort (i : Nat)

/-- A batch after its next write. -/
def Job.wrote (j : Job κ ν) (w : κ × ν) (rest : List (κ × ν)) (next : Nat) :
    Job κ ν :=
  ⟨j.done ++ [w], rest, some (j.rank.getD next), false⟩

/-- The machine of batches. -/
def batches : Machine (State κ ν) (Label κ ν) where
  step s
    | .arrive i ws =>
        match s.jobs i with
        | none => some { s with
            jobs := Function.update s.jobs i (some ⟨[], ws, none, false⟩) }
        | some _ => none
    | .write i =>
        match s.jobs i with
        | some ⟨done, w :: rest, rank, false⟩ => some {
            cells := Function.update s.cells w.1 (some w.2)
            jobs := Function.update s.jobs i
              (some (Job.wrote ⟨done, w :: rest, rank, false⟩ w rest s.next))
            next := if rank.isNone then s.next + 1 else s.next }
        | _ => none
    | .abort i =>
        match s.jobs i with
        | some ⟨done, w :: rest, rank, false⟩ => some { s with
            jobs := Function.update s.jobs i
              (some ⟨done, w :: rest, rank, true⟩) }
        | _ => none

/-- No batch has a write to do. -/
def State.Quiescent (s : State κ ν) : Prop :=
  ∀ i j, s.jobs i = some j → j.todo = [] ∨ j.aborted = true

/-- Batch `j` has begun after batch `i`. -/
def Job.Later (i j : Job κ ν) : Prop :=
  ∃ r r', i.rank = some r ∧ j.rank = some r' ∧ r < r'

/-- **Batches in order**: each writes the cells `keys`, none gives up, and no
write is late. -/
def InOrder (keys : List κ) (s : State κ ν) : Label κ ν → Prop
  | .arrive _ ws => ws.map Prod.fst = keys
  | .write i => ∀ job, s.jobs i = some job → ∀ j job', s.jobs j = some job' →
      job.Later job' → job'.done.length ≤ job.done.length
  | .abort _ => False

/-! ## What writes in order preserve -/

/-- The bookkeeping of the machine. -/
structure Sound (keys : List κ) (s : State κ ν) : Prop where
  keys : ∀ i job, s.jobs i = some job →
    (job.done ++ job.todo).map Prod.fst = keys
  alive : ∀ i job, s.jobs i = some job → job.aborted = false
  begun : ∀ i job, s.jobs i = some job → (job.rank = none ↔ job.done = [])
  bound : ∀ i job r, s.jobs i = some job → job.rank = some r → r < s.next
  distinct : ∀ i j job job' r, s.jobs i = some job → s.jobs j = some job' →
    job.rank = some r → job'.rank = some r → i = j
  last : 0 < s.next → ∃ i job, s.jobs i = some job ∧
    job.rank = some (s.next - 1)

/-- A batch that has done all its writes of a cell has left its own there, or
a later one has written the cell. -/
def Ordered (s : State κ ν) : Prop :=
  ∀ i job, s.jobs i = some job → ∀ p ∈ job.done.map Prod.fst,
    p ∉ job.todo.map Prod.fst → s.cells p = outcome job.done p ∨
      ∃ j job', s.jobs j = some job' ∧ job.Later job' ∧
        p ∈ job'.done.map Prod.fst

section Steps

variable {keys : List κ} {s s' : State κ ν} {i : Nat}

/-- **What a write does.** -/
theorem write_cases (h : batches.step s (.write i) = some s') :
    ∃ done w rest rank, s.jobs i = some ⟨done, w :: rest, rank, false⟩ ∧
      s' = {
        cells := Function.update s.cells w.1 (some w.2)
        jobs := Function.update s.jobs i
          (some ⟨done ++ [w], rest, some (rank.getD s.next), false⟩)
        next := if rank.isNone then s.next + 1 else s.next } := by
  simp only [batches] at h
  split at h
  · next done w rest rank hjob =>
    exact ⟨done, w, rest, rank, hjob, (Option.some.inj h).symm⟩
  · cases h

omit [DecidableEq κ] in
/-- The batches after one of them has changed. -/
theorem update_cases {jobs : Nat → Option (Job κ ν)} {new job : Job κ ν}
    {j : Nat} (h : Function.update jobs i (some new) j = some job) :
    (j = i ∧ job = new) ∨ (j ≠ i ∧ jobs j = some job) := by
  by_cases hj : j = i
  · subst hj
    rw [Function.update_self] at h
    exact .inl ⟨rfl, (Option.some.inj h).symm⟩
  · rw [Function.update_of_ne hj] at h
    exact .inr ⟨hj, h⟩

omit [DecidableEq κ] in
theorem sound_start (cells : κ → Option ν) : Sound keys (start cells) where
  keys := fun _ _ h => nomatch h
  alive := fun _ _ h => nomatch h
  begun := fun _ _ h => nomatch h
  bound := fun _ _ _ h => nomatch h
  distinct := fun _ _ _ _ _ h => nomatch h
  last := fun h => absurd h (Nat.lt_irrefl 0)

omit [DecidableEq κ] in
theorem Sound.arrive (h : Sound keys s) {ws : List (κ × ν)}
    (hfree : s.jobs i = none) (hkeys : ws.map Prod.fst = keys) :
    Sound keys { s with
      jobs := Function.update s.jobs i (some ⟨[], ws, none, false⟩) } := by
  constructor
  · intro j job hj
    rcases update_cases hj with ⟨rfl, rfl⟩ | ⟨_, hj⟩
    · exact hkeys
    · exact h.keys j job hj
  · intro j job hj
    rcases update_cases hj with ⟨rfl, rfl⟩ | ⟨_, hj⟩
    · rfl
    · exact h.alive j job hj
  · intro j job hj
    rcases update_cases hj with ⟨rfl, rfl⟩ | ⟨_, hj⟩
    · simp
    · exact h.begun j job hj
  · intro j job r hj hr
    rcases update_cases hj with ⟨rfl, rfl⟩ | ⟨_, hj⟩
    · cases hr
    · exact h.bound j job r hj hr
  · intro j k job job' r hj hk hr hr'
    rcases update_cases hj with ⟨rfl, rfl⟩ | ⟨_, hj⟩
    · cases hr
    · rcases update_cases hk with ⟨rfl, rfl⟩ | ⟨_, hk⟩
      · cases hr'
      · exact h.distinct j k job job' r hj hk hr hr'
  · intro hnext
    obtain ⟨j, job, hj, hr⟩ := h.last hnext
    have hne : j ≠ i := by
      rintro rfl
      rw [hfree] at hj
      cases hj
    exact ⟨j, job, (Function.update_of_ne hne _ _).trans hj, hr⟩

theorem Sound.write (h : Sound keys s)
    (hstep : batches.step s (.write i) = some s') : Sound keys s' := by
  obtain ⟨done, w, rest, rank, hi, rfl⟩ := write_cases hstep
  have hkeys := h.keys i _ hi
  -- the rank the batch has after the write
  have hrank : ∀ r, some (rank.getD s.next) = some r →
      rank = some r ∨ (rank = none ∧ r = s.next) := by
    intro r hr
    cases rank with
    | none => exact .inr ⟨rfl, (Option.some.inj hr).symm⟩
    | some r' => exact .inl hr
  have hnext : ∀ r, r < s.next →
      r < if rank.isNone then s.next + 1 else s.next := by
    intro r hr
    split
    · omega
    · exact hr
  constructor
  · intro j job hj
    rcases update_cases hj with ⟨rfl, rfl⟩ | ⟨_, hj⟩
    · simpa using hkeys
    · exact h.keys j job hj
  · intro j job hj
    rcases update_cases hj with ⟨rfl, rfl⟩ | ⟨_, hj⟩
    · rfl
    · exact h.alive j job hj
  · intro j job hj
    rcases update_cases hj with ⟨rfl, rfl⟩ | ⟨_, hj⟩
    · simp
    · exact h.begun j job hj
  · intro j job r hj hr
    rcases update_cases hj with ⟨rfl, rfl⟩ | ⟨_, hj⟩
    · rcases hrank r hr with hold | ⟨rfl, rfl⟩
      · exact hnext r (h.bound j _ r hi hold)
      · exact Nat.lt_succ_self _
    · exact hnext r (h.bound j job r hj hr)
  · intro j k job job' r hj hk hr hr'
    rcases update_cases hj with ⟨rfl, rfl⟩ | ⟨_, hold⟩
    · rcases update_cases hk with ⟨rfl, rfl⟩ | ⟨_, hold'⟩
      · rfl
      · rcases hrank r hr with hsame | ⟨_, hnew⟩
        · exact h.distinct j k _ job' r hi hold' hsame hr'
        · exact absurd (h.bound k job' r hold' hr') (by omega)
    · rcases update_cases hk with ⟨rfl, rfl⟩ | ⟨_, hold'⟩
      · rcases hrank r hr' with hsame | ⟨_, hnew⟩
        · exact h.distinct j k job _ r hold hi hr hsame
        · exact absurd (h.bound j job r hold hr) (by omega)
      · exact h.distinct j k job job' r hold hold' hr hr'
  · intro _
    cases rank with
    | none => exact ⟨i, _, Function.update_self _ _ _, rfl⟩
    | some r =>
        have hbound := h.bound i _ r hi rfl
        obtain ⟨j, job, hj, hr⟩ := h.last (Nat.zero_lt_of_lt hbound)
        by_cases hji : j = i
        · subst hji
          rw [hi] at hj
          obtain rfl := Option.some.inj hj
          exact ⟨j, _, Function.update_self _ _ _, hr⟩
        · exact ⟨j, job, (Function.update_of_ne hji _ _).trans hj, hr⟩

omit [DecidableEq κ] in
/-- Two batches over the same cells: where one still has to write, so has one
that has not got as far. -/
theorem mem_todo_of_le {done todo done' rest : List κ} {p : κ}
    (h : done' ++ todo = done ++ p :: rest) (hle : done'.length ≤ done.length) :
    p ∈ todo := by
  have hget : (done ++ p :: rest)[done.length]? = some p := by simp
  rw [← h, List.getElem?_append_right hle] at hget
  exact List.mem_of_getElem? hget

/-- **Step lemma.**  A write that is not late. -/
theorem Ordered.write (h : Ordered s) (h₀ : Sound keys s)
    (horder : InOrder keys s (.write i))
    (hstep : batches.step s (.write i) = some s') : Ordered s' := by
  obtain ⟨done, w, rest, rank, hi, rfl⟩ := write_cases hstep
  intro j job hj p hdone htodo
  have hself : Function.update s.jobs i
      (some ⟨done ++ [w], rest, some (rank.getD s.next), false⟩) i =
        some ⟨done ++ [w], rest, some (rank.getD s.next), false⟩ :=
    Function.update_self i _ s.jobs
  by_cases hp : w.1 = p
  · subst hp
    rcases update_cases hj with ⟨rfl, rfl⟩ | ⟨hji, hold⟩
    · left
      simp [outcome_concat]
    · right
      refine ⟨i, _, hself, ?_, by simp⟩
      -- otherwise the write is late
      obtain ⟨r, hr⟩ : ∃ r, job.rank = some r := by
        cases hr : job.rank with
        | none =>
            rw [(h₀.begun j job hold).mp hr] at hdone
            cases hdone
        | some r => exact ⟨r, rfl⟩
      refine ⟨r, _, hr, rfl, ?_⟩
      by_contra hlate
      have hbound := h₀.bound j job r hold hr
      cases rank with
      | none => exact hlate hbound
      | some r' =>
          have hne : r' ≠ r := by
            rintro rfl
            exact hji (h₀.distinct j i job _ r' hold hi hr rfl)
          have hlater : r' < r :=
            Nat.lt_of_le_of_ne (Nat.le_of_not_lt hlate) hne
          have hle := horder _ hi j job hold ⟨r', r, rfl, hr, hlater⟩
          have hsame := (h₀.keys j job hold).trans (h₀.keys i _ hi).symm
          rw [List.map_append, List.map_append] at hsame
          exact htodo (mem_todo_of_le hsame (by simpa using hle))
  · have hcell : Function.update s.cells w.1 (some w.2) p = s.cells p :=
      Function.update_of_ne (Ne.symm hp) _ _
    rcases update_cases hj with ⟨rfl, rfl⟩ | ⟨hji, hj⟩
    · have hold : p ∈ done.map Prod.fst := by
        simpa [Ne.symm hp] using hdone
      have hrest : p ∉ (w :: rest).map Prod.fst := by
        simpa [Ne.symm hp] using htodo
      rcases h j _ hi p hold hrest with hc | ⟨k, job', hk, hlater, hmem⟩
      · left
        rw [outcome_concat, if_neg hp]
        exact hcell.trans hc
      · right
        obtain ⟨r, r', hr, hr', hlt⟩ := hlater
        obtain rfl : rank = some r := hr
        have hkj : k ≠ j := by
          rintro rfl
          obtain rfl := Option.some.inj (hi.symm.trans hk)
          obtain rfl := Option.some.inj hr'
          exact Nat.lt_irrefl _ hlt
        exact ⟨k, job', (Function.update_of_ne hkj _ _).trans hk,
          ⟨r, r', rfl, hr', hlt⟩, hmem⟩
    · rcases h j job hj p hdone htodo with hc | ⟨k, job', hk, hlater, hmem⟩
      · exact .inl (hcell.trans hc)
      · right
        by_cases hki : k = i
        · subst hki
          obtain rfl := Option.some.inj (hi.symm.trans hk)
          obtain ⟨r, r', hr, hr', hlt⟩ := hlater
          obtain rfl : rank = some r' := hr'
          refine ⟨k, _, hself, ⟨r, r', hr, rfl, hlt⟩, ?_⟩
          rw [List.map_append]
          exact List.mem_append_left _ hmem
        · exact ⟨k, job', (Function.update_of_ne hki _ _).trans hk, hlater,
            hmem⟩

/-- The invariant of batches in order. -/
def Inv (keys : List κ) (s : State κ ν) : Prop := Sound keys s ∧ Ordered s

theorem inv_start (cells : κ → Option ν) : Inv keys (start cells) :=
  ⟨sound_start cells, fun _ _ h => nomatch h⟩

/-- **Step lemma** of batches in order. -/
theorem inv_step (s : State κ ν) (a : Label κ ν) (s' : State κ ν)
    (h : Inv keys s) (horder : InOrder keys s a)
    (hstep : batches.step s a = some s') : Inv keys s' := by
  obtain ⟨hsound, hordered⟩ := h
  cases a with
  | arrive i ws =>
      simp only [batches] at hstep
      split at hstep
      · next hfree =>
        obtain rfl := Option.some.inj hstep
        refine ⟨hsound.arrive hfree horder, ?_⟩
        intro j job hj p hdone htodo
        rcases update_cases hj with ⟨rfl, rfl⟩ | ⟨_, hj⟩
        · cases hdone
        · refine (hordered j job hj p hdone htodo).imp_right ?_
          rintro ⟨k, job', hk, hlater, hmem⟩
          have hki : k ≠ i := by
            rintro rfl
            rw [hfree] at hk
            cases hk
          exact ⟨k, job', (Function.update_of_ne hki _ _).trans hk, hlater,
            hmem⟩
      · cases hstep
  | write i => exact ⟨hsound.write hstep, hordered.write hsound horder hstep⟩
  | abort i => exact horder.elim

/-- **One batch.**  When batches in order have ended, and there was one, all
cells they write hold what one of them has left there. -/
theorem Inv.one_batch (h : Inv keys s) (hquiet : s.Quiescent)
    (hsome : ∃ i job, s.jobs i = some job) :
    ∃ i job, s.jobs i = some job ∧ job.todo = [] ∧
      ∀ p ∈ keys, s.cells p = outcome job.done p := by
  obtain ⟨hsound, hordered⟩ := h
  have hended : ∀ i job, s.jobs i = some job → job.todo = [] := by
    intro i job hi
    refine (hquiet i job hi).resolve_right fun haborted => ?_
    rw [hsound.alive i job hi] at haborted
    cases haborted
  obtain ⟨i, job, hi⟩ := hsome
  by_cases hnext : 0 < s.next
  · -- the batch that began last
    obtain ⟨j, last, hj, hrank⟩ := hsound.last hnext
    have htodo := hended j last hj
    refine ⟨j, last, hj, htodo, fun p hp => ?_⟩
    have hkeys := hsound.keys j last hj
    rw [htodo, List.append_nil] at hkeys
    rcases hordered j last hj p (hkeys ▸ hp) (by simp [htodo])
      with hcell | ⟨k, job', hk, hlater, _⟩
    · exact hcell
    · obtain ⟨r, r', hr, hr', hlt⟩ := hlater
      have hbound := hsound.bound k job' r' hk hr'
      rw [hrank] at hr
      obtain rfl := Option.some.inj hr
      omega
  · -- nothing has been written, so there is nothing to write
    have hnone : job.rank = none := by
      cases hr : job.rank with
      | none => rfl
      | some r => exact absurd (hsound.bound i job r hi hr) (by omega)
    have hkeys := hsound.keys i job hi
    rw [hended i job hi, (hsound.begun i job hi).mp hnone] at hkeys
    refine ⟨i, job, hi, hended i job hi, fun p hp => ?_⟩
    rw [← hkeys] at hp
    cases hp

end Steps

end Overwrite

end Hdns.Verified

import Hdns.Verified.Overwrite
import Mathlib.Data.List.Nodup

/-!
# Maps whose entries come in any order

A loop over a map visits its entries in an order that the runtime chooses anew
each time.  When the loop writes every value to a cell that depends on the key,
and several keys have one cell, the last of them wins: the cells are the same
after every order exactly when the keys of each cell agree on the value.

## Main results

* `exists_lists` — a map that was built by writes can be listed.
* `writes_congr` — where the keys of a cell agree, the order does not matter.
* `same_iff` — and nowhere else.
-/

namespace Hdns.Verified.MapOrder

open Hdns.Verified.Overwrite

universe u v w x

variable {κ : Type u} {ν : Type v} {ι : Type w} {β : Type x}

/-! ## Listings -/

/-- The entries of a map, each key once: what one loop over it visits. -/
structure Lists (m : κ → Option ν) (es : List (κ × ν)) : Prop where
  nodup : (es.map Prod.fst).Nodup
  mem_iff : ∀ k v, (k, v) ∈ es ↔ m k = some v

/-- The orders of the loops: a listing of every map that has one. -/
structure Order (κ : Type u) (ν : Type v) where
  entries : (κ → Option ν) → List (κ × ν)
  lists : ∀ {m es}, Lists m es → Lists m (entries m)

/-- Every listing is the order of some loop. -/
theorem exists_order {m : κ → Option ν} {es : List (κ × ν)} (h : Lists m es) :
    ∃ order : Order κ ν, order.entries m = es := by
  classical
  have hlists : ∀ {m' es'}, Lists m' es' → Lists m'
      (if m' = m then es else
        if h' : ∃ es'', Lists m' es'' then h'.choose else []) := by
    intro m' es' hes'
    by_cases hm : m' = m
    · rw [if_pos hm, hm]
      exact h
    · rw [if_neg hm, dif_pos ⟨es', hes'⟩]
      exact Exists.choose_spec ⟨es', hes'⟩
  exact ⟨⟨_, hlists⟩, if_pos rfl⟩

section Built

variable [DecidableEq κ]

/-- The listing after one more write. -/
theorem Lists.update {m : κ → Option ν} {es : List (κ × ν)} (h : Lists m es)
    (k : κ) (v : ν) :
    Lists (Function.update m k (some v))
      (es.filter (fun e => e.1 ≠ k) ++ [(k, v)]) where
  nodup := by
    rw [List.map_append, List.nodup_append]
    have hkeys : ((es.filter fun e => e.1 ≠ k).map Prod.fst).Sublist
        (es.map Prod.fst) := List.filter_sublist.map Prod.fst
    refine ⟨h.nodup.sublist hkeys, List.nodup_singleton k, ?_⟩
    intro k₁ hk₁ k₂ hk₂
    obtain ⟨e, he, rfl⟩ := List.mem_map.mp hk₁
    obtain rfl := List.mem_singleton.mp hk₂
    exact of_decide_eq_true (List.mem_filter.mp he).2
  mem_iff := by
    intro k' v'
    by_cases hk : k' = k
    · subst hk
      simp [eq_comm]
    · simp [hk, h.mem_iff]

/-- A map that was built by writes can be listed. -/
theorem exists_lists (ws : List (κ × ν)) :
    ∃ es, Lists (carriedOut ws fun _ => none) es := by
  induction ws using List.reverseRecOn with
  | nil => exact ⟨[], List.nodup_nil, by simp [carriedOut]⟩
  | append_singleton ws w ih =>
      obtain ⟨es, hes⟩ := ih
      rw [carriedOut_concat]
      exact ⟨_, hes.update w.1 w.2⟩

/-- An entry of a map can come last. -/
theorem Lists.exists_last {m : κ → Option ν} {es : List (κ × ν)}
    (h : Lists m es) {k : κ} {v : ν} (hk : m k = some v) :
    ∃ es', Lists m (es' ++ [(k, v)]) := by
  have hsame : Function.update m k (some v) = m := by
    rw [← hk, Function.update_eq_self]
  have hlast := h.update k v
  rw [hsame] at hlast
  exact ⟨_, hlast⟩

end Built

/-! ## Writes that agree -/

section Agreeing

variable [DecidableEq ι]

/-- Where the writes to a cell agree, it holds what any of them writes. -/
theorem outcome_eq_some_iff {ws : List (ι × β)}
    (hagree : ∀ y ∈ ws, ∀ z ∈ ws, y.1 = z.1 → y.2 = z.2) {p : ι} {b : β} :
    outcome ws p = some b ↔ (p, b) ∈ ws := by
  induction ws using List.reverseRecOn with
  | nil => simp [outcome]
  | append_singleton ws y ih =>
      have hlast : y ∈ ws ++ [y] := by simp
      rw [outcome_concat]
      by_cases hp : y.1 = p
      · subst hp
        rw [if_pos rfl, Option.some.injEq]
        constructor
        · intro hb
          rw [← hb]
          exact hlast
        · exact fun hmem => hagree y hlast _ hmem rfl
      · have hold : ∀ z ∈ ws, z ∈ ws ++ [y] := by simp +contextual
        rw [if_neg hp, ih fun z hz z' hz' => hagree z (hold z hz) z'
          (hold z' hz')]
        have hne : (p, b) ≠ y := fun heq => hp (congrArg Prod.fst heq.symm)
        simp [hne]

/-- Entries with different keys are the map they are written to. -/
theorem lists_carriedOut {es : List (ι × β)} (h : (es.map Prod.fst).Nodup) :
    Lists (carriedOut es fun _ => none) es where
  nodup := h
  mem_iff := by
    intro k v
    have hagree : ∀ y ∈ es, ∀ z ∈ es, y.1 = z.1 → y.2 = z.2 :=
      fun y hy z hz heq => congrArg Prod.snd
        (List.inj_on_of_nodup_map h hy hz heq)
    rw [carriedOut_apply, Option.or_none, outcome_eq_some_iff hagree]

end Agreeing

/-! ## Loops that write -/

/-- What a loop over these entries writes: the value of each, as `value` has it,
to the cell of its key. -/
def writes (cell : κ → ι) (value : ν → β) (es : List (κ × ν)) : List (ι × β) :=
  es.map fun e => (cell e.1, value e.2)

/-- Keys with one cell have one value. -/
def Agree (cell : κ → ι) (m : κ → Option ν) : Prop :=
  ∀ k k' v v', m k = some v → m k' = some v' → cell k = cell k' → v = v'

section Loops

variable {cell : κ → ι} {value : ν → β} {m : κ → Option ν}
  {es es' : List (κ × ν)}

theorem Lists.mem_writes (h : Lists m es) {p : ι} {b : β} :
    (p, b) ∈ writes cell value es ↔
      ∃ k v, m k = some v ∧ cell k = p ∧ value v = b := by
  simp [writes, h.mem_iff]

theorem Agree.writes (hagree : Agree cell m) (h : Lists m es) :
    ∀ y ∈ writes cell value es, ∀ z ∈ writes cell value es,
      y.1 = z.1 → y.2 = z.2 := by
  intro y hy z hz heq
  obtain ⟨k, v, hk, hcell, hvalue⟩ := h.mem_writes.mp hy
  obtain ⟨k', v', hk', hcell', hvalue'⟩ := h.mem_writes.mp hz
  have hsame : v = v' := hagree k k' v v' hk hk'
    (hcell.trans (heq.trans hcell'.symm))
  rw [← hvalue, ← hvalue', hsame]

variable [DecidableEq ι]

/-- Where the keys of a cell agree, every order writes the same. -/
theorem writes_congr (hagree : Agree cell m) (h : Lists m es)
    (h' : Lists m es') (cells : ι → Option β) :
    carriedOut (writes cell value es) cells =
      carriedOut (writes cell value es') cells := by
  funext p
  have houtcome : outcome (writes cell value es) p =
      outcome (writes cell value es') p := by
    ext b
    rw [outcome_eq_some_iff (hagree.writes h),
      outcome_eq_some_iff (hagree.writes h'), h.mem_writes, h'.mem_writes]
  rw [carriedOut_apply, carriedOut_apply, houtcome]

/-- The last entry is there in the end. -/
theorem carriedOut_writes_last (k : κ) (v : ν) (cells : ι → Option β) :
    carriedOut (writes cell value (es ++ [(k, v)])) cells (cell k) =
      some (value v) := by
  rw [writes, List.map_append, List.map_singleton, carriedOut_concat,
    Function.update_self]

/-- **The order of a loop** does not matter exactly if the keys of every cell
agree. -/
theorem same_iff [DecidableEq κ] (hvalue : Function.Injective value)
    (hlisted : Lists m es) (cells : ι → Option β) :
    (∀ es₁ es₂, Lists m es₁ → Lists m es₂ →
      carriedOut (writes cell value es₁) cells =
        carriedOut (writes cell value es₂) cells) ↔ Agree cell m := by
  constructor
  · intro hsame k k' v v' hk hk' hcell
    obtain ⟨es₁, h₁⟩ := hlisted.exists_last hk
    obtain ⟨es₂, h₂⟩ := hlisted.exists_last hk'
    have hcells := congrFun (hsame _ _ h₁ h₂) (cell k)
    rw [carriedOut_writes_last, hcell, carriedOut_writes_last] at hcells
    exact hvalue (Option.some.inj hcells)
  · exact fun hagree es₁ es₂ h₁ h₂ => writes_congr hagree h₁ h₂ cells

end Loops

end Hdns.Verified.MapOrder

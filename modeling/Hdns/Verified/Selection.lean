import Mathlib.Data.List.AList

/-!
# Ranging over a map for the best entry

A `range` loop over a Go map visits the entries in an unspecified order, so a
function that ranges over one is modelled with the order as an argument, and a
property of it is proved for every permutation of the keys.  The loops met here
keep a candidate and replace it by each entry that is better.

## Main results

* `select_spec` — nothing visited is better than what the scan ends with.
* `select_mem` — and that is one of the entries, if one is better than the
  start.
-/

namespace Hdns.Verified

/-- A Go map. -/
abbrev GoMap (κ α : Type) := AList fun _ : κ => α

namespace GoMap

variable {κ α : Type} [DecidableEq κ]

/-- `m[k]`, the zero value `z` where there is no entry. -/
def index (m : GoMap κ α) (z : α) (k : κ) : α := (m.lookup k).getD z

theorem index_insert (m : GoMap κ α) (z v : α) (k k' : κ) :
    index (m.insert k v) z k' = if k' = k then v else m.index z k' := by
  by_cases h : k' = k
  · subst h
    simp [index]
  · simp [index, h]

/-- `order` is an order a `range` loop over the map may take. -/
def Ranges (m : GoMap κ α) (order : List κ) : Prop := order.Perm m.keys

omit [DecidableEq κ] in
theorem Ranges.mem {m : GoMap κ α} {order : List κ} (h : m.Ranges order)
    {k : κ} : k ∈ order ↔ k ∈ m.keys := h.mem_iff

end GoMap

section Select

variable {β : Type} (better : β → β → Prop) [DecidableRel better]

/-- The scan: the candidate is replaced by each entry that is better. -/
def select (start : β) (xs : List β) : β :=
  xs.foldl (fun best x => if better x best then x else best) start

variable {better}

/-- **What a scan ends with**: the start, or an entry that is better; and no
entry is better than that. -/
theorem select_spec (htrans : ∀ x y z, better x y → better y z → better x z)
    (hirrefl : ∀ x, ¬better x x) :
    ∀ (xs : List β) (start : β),
      (select better start xs = start ∨
        select better start xs ∈ xs ∧
          better (select better start xs) start) ∧
      ∀ x ∈ xs, ¬better x (select better start xs) := by
  intro xs
  induction xs with
  | nil => exact fun start => ⟨.inl rfl, nofun⟩
  | cons x xs ih =>
      intro start
      by_cases hx : better x start
      · have hstep : select better start (x :: xs) = select better x xs := by
          simp [select, hx]
        obtain ⟨hcase, hrest⟩ := ih x
        rw [hstep]
        rcases hcase with heq | ⟨hmem, hbetter⟩
        · refine ⟨.inr ⟨?_, ?_⟩, fun y hy => ?_⟩
          · rw [heq]
            exact List.mem_cons_self
          · rw [heq]
            exact hx
          · rcases List.mem_cons.mp hy with rfl | hy
            · rw [heq]
              exact hirrefl _
            · exact hrest y hy
        · refine ⟨.inr ⟨List.mem_cons_of_mem x hmem, htrans _ _ _ hbetter hx⟩,
            fun y hy => ?_⟩
          rcases List.mem_cons.mp hy with rfl | hy
          · exact fun h => hirrefl _ (htrans _ _ _ h hbetter)
          · exact hrest y hy
      · have hstep : select better start (x :: xs) =
            select better start xs := by
          simp [select, hx]
        obtain ⟨hcase, hrest⟩ := ih start
        rw [hstep]
        refine ⟨hcase.imp_right fun h => ⟨List.mem_cons_of_mem x h.1, h.2⟩,
          fun y hy => ?_⟩
        rcases List.mem_cons.mp hy with rfl | hy
        · rcases hcase with heq | ⟨-, hbetter⟩
          · rw [heq]
            exact hx
          · exact fun h => hx (htrans _ _ _ h hbetter)
        · exact hrest y hy

/-- When some entry is better than the start, the scan ends with an entry. -/
theorem select_mem (htrans : ∀ x y z, better x y → better y z → better x z)
    (hirrefl : ∀ x, ¬better x x) {xs : List β} {start x : β} (hx : x ∈ xs)
    (hstart : better x start) : select better start xs ∈ xs := by
  obtain ⟨hcase, hnone⟩ := select_spec htrans hirrefl xs start
  rcases hcase with heq | ⟨hmem, -⟩
  · rw [heq] at hnone
    exact absurd hstart (hnone x hx)
  · exact hmem

end Select

end Hdns.Verified

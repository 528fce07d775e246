import Mathlib.Data.List.Nodup

/-!
# Tables with an auto-increment key

A table is its rows, in insertion order, with the counter the next key is taken
from.  The two facts every statement relies on, that keys are below the counter
and that no two rows share one, are fields of the structure, so a table in
which a lookup by key is ambiguous cannot be built.

The statements used by the model are `insert`, `burn` (a rejected insert, which
consumes a key all the same), `updateWhere`, and `deleteWhere`.
-/

namespace Hdns.Verified

/-- A row type with its primary key. -/
class Row (α : Type) where
  key : α → Int

structure Table (α : Type) [Row α] where
  rows : List α
  next : Int
  fresh : ∀ r ∈ rows, Row.key r < next
  distinct : (rows.map Row.key).Nodup

namespace Table

variable {α : Type} [Row α]

/-- The table a migration creates. -/
def empty : Table α := ⟨[], 1, by simp, by simp⟩

/-- `SELECT * FROM t WHERE id = ?`. -/
def find? (t : Table α) (id : Int) : Option α :=
  t.rows.find? fun r => Row.key r == id

/-- `INSERT`: the new row is built from the key the table assigns. -/
def insert (t : Table α) (row : Int → α)
    (hrow : ∀ i, Row.key (row i) = i := by intro _; rfl) : Table α where
  rows := t.rows ++ [row t.next]
  next := t.next + 1
  fresh := by
    intro r hr
    rcases List.mem_append.mp hr with h | h
    · exact Int.lt_trans (t.fresh r h) (by omega)
    · rw [List.mem_singleton.mp h, hrow]; omega
  distinct := by
    rw [List.map_append, List.map_singleton, hrow]
    refine List.nodup_append.mpr ⟨t.distinct, List.nodup_singleton _, ?_⟩
    intro k hk k' hk'
    obtain ⟨r, hr, rfl⟩ := List.mem_map.mp hk
    rw [List.mem_singleton.mp hk']
    exact Int.ne_of_lt (t.fresh r hr)

/-- An `INSERT` a constraint rejects: InnoDB does not give the key back. -/
def burn (t : Table α) : Table α where
  rows := t.rows
  next := t.next + 1
  fresh := fun r hr => Int.lt_trans (t.fresh r hr) (by omega)
  distinct := t.distinct

/-- `UPDATE t SET … WHERE p`. -/
def updateWhere (t : Table α) (p : α → Bool) (f : α → α)
    (hf : ∀ r, Row.key (f r) = Row.key r := by intro _; rfl) : Table α where
  rows := t.rows.map fun r => if p r then f r else r
  next := t.next
  fresh := by
    intro r hr
    obtain ⟨r₀, hr₀, rfl⟩ := List.mem_map.mp hr
    split
    · rw [hf]; exact t.fresh r₀ hr₀
    · exact t.fresh r₀ hr₀
  distinct := by
    have hkey : Row.key ∘ (fun r => if p r then f r else r) = Row.key := by
      funext r
      simp only [Function.comp]
      split
      · exact hf r
      · rfl
    rw [List.map_map, hkey]
    exact t.distinct

/-- `DELETE FROM t WHERE p`. -/
def deleteWhere (t : Table α) (p : α → Bool) : Table α where
  rows := t.rows.filter fun r => !p r
  next := t.next
  fresh := fun r hr => t.fresh r (List.mem_of_mem_filter hr)
  distinct := t.distinct.sublist (List.filter_sublist.map _)

/-! ## Lookups -/

@[simp] theorem rows_empty : (empty : Table α).rows = [] := rfl

@[simp] theorem rows_insert (t : Table α) (row : Int → α)
    (h : ∀ i, Row.key (row i) = i) :
    (t.insert row h).rows = t.rows ++ [row t.next] := rfl

@[simp] theorem rows_updateWhere (t : Table α) (p : α → Bool) (f : α → α)
    (hf : ∀ r, Row.key (f r) = Row.key r) :
    (t.updateWhere p f hf).rows = t.rows.map fun r => if p r then f r else r :=
  rfl

theorem find?_mem {t : Table α} {id : Int} {r : α} (h : t.find? id = some r) :
    r ∈ t.rows := List.mem_of_find?_eq_some h

theorem find?_key {t : Table α} {id : Int} {r : α} (h : t.find? id = some r) :
    Row.key r = id := by
  simpa using List.find?_some h

/-- A lookup by key finds the row with that key. -/
theorem find?_of_mem {t : Table α} {r : α} (h : r ∈ t.rows) :
    t.find? (Row.key r) = some r := by
  have hex : (t.find? (Row.key r)).isSome = true := by
    simp only [find?, List.find?_isSome]
    exact ⟨r, h, by simp⟩
  obtain ⟨r', hr'⟩ := Option.isSome_iff_exists.mp hex
  have hkey := find?_key hr'
  rw [hr', List.inj_on_of_nodup_map t.distinct (find?_mem hr') h hkey]

theorem find?_eq_none {t : Table α} {id : Int} :
    t.find? id = none ↔ ∀ r ∈ t.rows, Row.key r ≠ id := by
  simp [find?, List.find?_eq_none]

/-- An update acts on the row a search finds by columns it does not set. -/
theorem rows_find?_updateWhere (t : Table α) (p : α → Bool) (f : α → α)
    (hf : ∀ r, Row.key (f r) = Row.key r) {q : α → Bool}
    (hq : ∀ r, q (f r) = q r) :
    (t.updateWhere p f hf).rows.find? q =
      (t.rows.find? q).map fun r => if p r then f r else r := by
  have hcomp : (q ∘ fun r => if p r then f r else r) = q := by
    funext r
    simp only [Function.comp]
    split
    · exact hq r
    · rfl
  rw [rows_updateWhere, List.find?_map, hcomp]

/-- An update that keeps keys acts on the row it finds. -/
theorem find?_updateWhere (t : Table α) (p : α → Bool) (f : α → α)
    (hf : ∀ r, Row.key (f r) = Row.key r) (id : Int) :
    (t.updateWhere p f hf).find? id =
      (t.find? id).map fun r => if p r then f r else r :=
  t.rows_find?_updateWhere p f hf fun r => by rw [hf]

/-- The row an update by key is about. -/
theorem find?_updateWhere_self {t : Table α} {id : Int} {f : α → α}
    (hf : ∀ r, Row.key (f r) = Row.key r) {r : α} (h : t.find? id = some r) :
    (t.updateWhere (fun r => Row.key r == id) f hf).find? id = some (f r) := by
  rw [find?_updateWhere, h]
  simp [find?_key h]

/-- An insert does not disturb the lookup of an existing key. -/
theorem find?_insert_of_some {t : Table α} {row : Int → α}
    {h : ∀ i, Row.key (row i) = i} {id : Int} {r : α}
    (hr : t.find? id = some r) : (t.insert row h).find? id = some r := by
  simp only [find?] at hr ⊢
  simp [List.find?_append, hr]

/-- Nor any lookup but the one of the inserted key. -/
theorem find?_insert_ne (t : Table α) (row : Int → α)
    (h : ∀ i, Row.key (row i) = i) {id : Int} (hid : id ≠ t.next) :
    (t.insert row h).find? id = t.find? id := by
  simp [find?, List.find?_append, h, Ne.symm hid]

/-- The inserted row is found under the key it was given. -/
theorem find?_insert_self (t : Table α) (row : Int → α)
    (h : ∀ i, Row.key (row i) = i) :
    (t.insert row h).find? t.next = some (row t.next) := by
  have hmem : row t.next ∈ (t.insert row h).rows := by simp
  simpa [h] using find?_of_mem hmem

/-- An update of the row that was just inserted leaves the others alone. -/
theorem rows_updateWhere_insert (t : Table α) {row : Int → α}
    (h : ∀ i, Row.key (row i) = i) {f : α → α}
    (hf : ∀ r, Row.key (f r) = Row.key r) :
    ((t.insert row h).updateWhere (fun r => Row.key r == t.next) f hf).rows =
      t.rows ++ [f (row t.next)] := by
  have hold : (t.rows.map fun r =>
      if Row.key r == t.next then f r else r) = t.rows := by
    refine (List.map_congr_left fun r hr => ?_).trans (List.map_id _)
    have hne : Row.key r ≠ t.next := Int.ne_of_lt (t.fresh r hr)
    simp [hne]
  rw [rows_updateWhere, rows_insert, List.map_append, hold]
  simp [h]

/-- What a deletion by key is about is gone. -/
theorem find?_deleteWhere (t : Table α) (id : Int) :
    (t.deleteWhere fun r => Row.key r == id).find? id = none := by
  refine find?_eq_none.mpr fun r hr hid => ?_
  have hkept := (List.mem_filter.mp hr).2
  simp [hid] at hkept

/-! ## Columns -/

section Columns

variable {β : Type} {col : α → β}

/-- What a column holds, by the key of the row. -/
def column (t : Table α) (col : α → β) (id : Int) : Option β :=
  (t.find? id).map col

theorem column_eq_some {t : Table α} {id : Int} {r : α}
    (h : t.find? id = some r) : t.column col id = some (col r) := by
  rw [column, h]
  rfl

theorem column_insert {t : Table α} {row : Int → α}
    {h : ∀ i, Row.key (row i) = i} {b : β} (hcol : ∀ i, col (row i) = b) :
    (t.insert row h).column col =
      Function.update (t.column col) t.next (some b) := by
  funext i
  by_cases hi : i = t.next
  · subst hi
    rw [Function.update_self, column, find?_insert_self]
    exact congrArg some (hcol _)
  · rw [Function.update_of_ne hi, column, column, find?_insert_ne _ _ _ hi]

/-- An update of the row `id`, which there is. -/
theorem column_updateWhere {t : Table α} {id : Int} {f : α → α}
    (hf : ∀ r, Row.key (f r) = Row.key r) {b : β} (hcol : ∀ r, col (f r) = b)
    (hfound : (t.find? id).isSome = true) :
    (t.updateWhere (fun r => Row.key r == id) f hf).column col =
      Function.update (t.column col) id (some b) := by
  obtain ⟨found, hfound⟩ := Option.isSome_iff_exists.mp hfound
  have hkey := find?_key hfound
  funext i
  by_cases hi : i = id
  · subst hi
    rw [Function.update_self, column, find?_updateWhere, hfound]
    simp [hkey, hcol]
  · rw [Function.update_of_ne hi, column, column, find?_updateWhere]
    cases hrow : t.find? i with
    | none => rfl
    | some r =>
        have hne : Row.key r ≠ id :=
          fun heq => hi ((find?_key hrow).symm.trans heq)
        simp [hne]

/-- An update that does not set the column. -/
theorem column_updateWhere_of_kept {t : Table α} {p : α → Bool} {f : α → α}
    (hf : ∀ r, Row.key (f r) = Row.key r) (hcol : ∀ r, col (f r) = col r) :
    (t.updateWhere p f hf).column col = t.column col := by
  funext i
  rw [column, column, find?_updateWhere, Option.map_map]
  refine congrArg (Option.map · _) (funext fun r => ?_)
  simp only [Function.comp]
  split
  · exact hcol r
  · rfl

end Columns

end Table

end Hdns.Verified

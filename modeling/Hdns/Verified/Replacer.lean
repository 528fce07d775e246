import Hdns.Verified.GoString
import Mathlib.Data.List.Infix

/-!
# Replacing several texts at once

A replacer runs over a text once and puts a value in the place of every key it
meets.  Where no key is the beginning of another one, what it does has two
halves: the text is split into keys and other elements, which is a matter of the
text and the keys alone, and every key becomes its value.  The alphabet is
arbitrary; `strings.NewReplacer` is the replacer of bytes.

## Main results

* `splits_iff` — a text has exactly one splitting.
* `replace_key`, `replace_element` — the replacer at the front of a text.
* `replace_perm` — the order of the pairs does not matter.
* `replacer_eq` — the replacer of bytes.
-/

namespace Hdns.Verified.Replacer

variable {α : Type} [DecidableEq α]

/-- A part of a text: an element outside the keys, or a key. -/
inductive Part (α : Type) where
  | element (a : α)
  | key (k : List α)
  deriving DecidableEq, Repr

/-- The part as it stands in the text. -/
def Part.text : Part α → List α
  | element a => [a]
  | key k => k

/-- The rest of a text in parts; `skip` elements of the last key are still to be
passed over. -/
def partsFrom (keys : List (List α)) : Nat → List α → List (Part α)
  | _, [] => []
  | skip + 1, _ :: as => partsFrom keys skip as
  | 0, a :: as =>
      match keys.find? fun k => k.isPrefixOf (a :: as) with
      | some k => .key k :: partsFrom keys (k.length - 1) as
      | none => .element a :: partsFrom keys 0 as

/-- A text in parts. -/
def parts (keys : List (List α)) (s : List α) : List (Part α) :=
  partsFrom keys 0 s

/-- The value of a key. -/
def value (pairs : List (List α × List α)) (k : List α) : List α :=
  (pairs.lookup k).getD []

/-- What a part becomes. -/
def fill (pairs : List (List α × List α)) : Part α → List α
  | .element a => [a]
  | .key k => value pairs k

/-- The keys of the pairs. -/
def keysOf (pairs : List (List α × List α)) : List (List α) :=
  pairs.map Prod.fst

/-- The text with the keys replaced. -/
def replace (pairs : List (List α × List α)) (s : List α) : List α :=
  (parts (keysOf pairs) s).flatMap (fill pairs)

/-- What is expected of keys: none is empty, and none begins another. -/
structure Separate (keys : List (List α)) : Prop where
  nonempty : ∀ k ∈ keys, k ≠ []
  prefixFree : ∀ k ∈ keys, ∀ k' ∈ keys, k <+: k' → k = k'

/-- A splitting from left to right: a key where there is one, an element where
there is none. -/
inductive Splits (keys : List (List α)) : List α → List (Part α) → Prop where
  | nil : Splits keys [] []
  | key {k s : List α} {ps : List (Part α)} (hk : k ∈ keys)
      (h : Splits keys s ps) : Splits keys (k ++ s) (.key k :: ps)
  | element {a : α} {s : List α} {ps : List (Part α)}
      (hnone : ∀ k ∈ keys, ¬k <+: a :: s) (h : Splits keys s ps) :
      Splits keys (a :: s) (.element a :: ps)

section Parts

variable {keys : List (List α)}

theorem partsFrom_eq (skip : Nat) (s : List α) :
    partsFrom keys skip s = parts keys (s.drop skip) := by
  induction skip generalizing s with
  | zero => rfl
  | succ skip ih =>
      cases s with
      | nil => rfl
      | cons a as => exact ih as

theorem parts_element {a : α} {s : List α}
    (hnone : ∀ k ∈ keys, ¬k <+: a :: s) :
    parts keys (a :: s) = .element a :: parts keys s := by
  have hfind : (keys.find? fun k => k.isPrefixOf (a :: s)) = none := by
    rw [List.find?_eq_none]
    intro k hk
    rw [List.isPrefixOf_iff_prefix]
    exact hnone k hk
  rw [parts, partsFrom, hfind]
  rfl

variable (hsep : Separate keys)
include hsep

omit [DecidableEq α] in
/-- Of two keys at one place one is the other. -/
theorem Separate.eq_of_prefix {k k' s : List α} (hk : k ∈ keys)
    (hk' : k' ∈ keys) (h : k <+: s) (h' : k' <+: s) : k = k' := by
  cases List.prefix_or_prefix_of_prefix h h' with
  | inl hle => exact hsep.prefixFree k hk k' hk' hle
  | inr hle => exact (hsep.prefixFree k' hk' k hk hle).symm

theorem Separate.find_eq {k s : List α} (hk : k ∈ keys) (h : k <+: s) :
    (keys.find? fun k => k.isPrefixOf s) = some k := by
  cases hfind : keys.find? fun k => k.isPrefixOf s with
  | none =>
      rw [List.find?_eq_none] at hfind
      exact absurd (List.isPrefixOf_iff_prefix.mpr h) (hfind k hk)
  | some k' =>
      have hprefix := List.isPrefixOf_iff_prefix.mp
        (List.find?_some (p := fun k : List α => k.isPrefixOf s) hfind)
      rw [hsep.eq_of_prefix (List.mem_of_find?_eq_some hfind) hk hprefix h]

theorem parts_key {k : List α} (hk : k ∈ keys) (s : List α) :
    parts keys (k ++ s) = .key k :: parts keys s := by
  have hfind := hsep.find_eq hk (List.prefix_append k s)
  cases k with
  | nil => exact absurd rfl (hsep.nonempty [] hk)
  | cons a as =>
      rw [List.cons_append] at hfind ⊢
      rw [parts, partsFrom, hfind]
      simp only [partsFrom_eq, List.length_cons, Nat.add_sub_cancel,
        List.drop_left]

/-- **Induction along a replacer**: a key at the front, or an element that
begins no key. -/
theorem Separate.induct {motive : List α → Prop} (nil : motive [])
    (key : ∀ k ∈ keys, ∀ s, motive s → motive (k ++ s))
    (element : ∀ a s, (∀ k ∈ keys, ¬k <+: a :: s) → motive s →
      motive (a :: s)) (s : List α) : motive s := by
  induction hn : s.length using Nat.strong_induction_on generalizing s with
  | _ n ih =>
      cases s with
      | nil => exact nil
      | cons a as =>
          by_cases hkey : ∃ k ∈ keys, k <+: a :: as
          · obtain ⟨k, hk, rest, hrest⟩ := hkey
            have hpos := List.length_pos_of_ne_nil (hsep.nonempty k hk)
            have hlength := congrArg List.length hrest
            rw [List.length_append, hn] at hlength
            rw [← hrest]
            exact key k hk rest (ih rest.length (by omega) rest rfl)
          · have hnone : ∀ k ∈ keys, ¬k <+: a :: as :=
              fun k hk hprefix => hkey ⟨k, hk, hprefix⟩
            rw [List.length_cons] at hn
            exact element a as hnone (ih as.length (by omega) as rfl)

theorem splits_parts (s : List α) : Splits keys s (parts keys s) := by
  induction s using hsep.induct with
  | nil => exact .nil
  | key k hk s ih =>
      rw [parts_key hsep hk]
      exact .key hk ih
  | element a s hnone ih =>
      rw [parts_element hnone]
      exact .element hnone ih

/-- **There is one splitting**. -/
theorem splits_iff {s : List α} {ps : List (Part α)} :
    Splits keys s ps ↔ ps = parts keys s := by
  constructor
  · intro hsplits
    induction hsplits with
    | nil => rfl
    | key hk _ ih => rw [parts_key hsep hk, ih]
    | element hnone _ ih => rw [parts_element hnone, ih]
  · intro heq
    rw [heq]
    exact splits_parts hsep s

omit [DecidableEq α] in
theorem Separate.of_subset {keys' : List (List α)}
    (hsub : ∀ k ∈ keys', k ∈ keys) : Separate keys' where
  nonempty := fun k hk => hsep.nonempty k (hsub k hk)
  prefixFree := fun k hk k' hk' => hsep.prefixFree k (hsub k hk) k' (hsub k' hk')

end Parts

/-! ## The replacer -/

section Replace

variable {pairs : List (List α × List α)}

@[simp] theorem replace_nil : replace pairs [] = [] := rfl

theorem replace_element {a : α} {s : List α}
    (hnone : ∀ k ∈ keysOf pairs, ¬k <+: a :: s) :
    replace pairs (a :: s) = a :: replace pairs s := by
  rw [replace, parts_element hnone, List.flatMap_cons]
  rfl

theorem replace_key (hsep : Separate (keysOf pairs)) {k : List α}
    (hk : k ∈ keysOf pairs) (s : List α) :
    replace pairs (k ++ s) = value pairs k ++ replace pairs s := by
  rw [replace, parts_key hsep hk, List.flatMap_cons]
  rfl

theorem value_eq_of_mem (hnodup : (keysOf pairs).Nodup)
    {p : List α × List α} (hp : p ∈ pairs) : value pairs p.1 = p.2 := by
  rw [value]
  induction pairs with
  | nil => exact absurd hp List.not_mem_nil
  | cons q pairs ih =>
      rw [keysOf, List.map_cons, List.nodup_cons] at hnodup
      cases List.mem_cons.mp hp with
      | inl heq =>
          rw [heq, List.lookup_cons_self]
          rfl
      | inr hmem =>
          have hne : p.1 ≠ q.1 := by
            intro heq
            rw [← heq] at hnodup
            exact hnodup.1 (List.mem_map_of_mem hmem)
          rw [List.lookup_cons, beq_false_of_ne hne]
          exact ih hnodup.2 hmem

theorem value_perm {pairs' : List (List α × List α)}
    (hperm : pairs'.Perm pairs) (hnodup : (keysOf pairs).Nodup) {k : List α}
    (hk : k ∈ keysOf pairs) : value pairs' k = value pairs k := by
  obtain ⟨p, hp, rfl⟩ := List.mem_map.mp hk
  have hnodup' : (keysOf pairs').Nodup := (hperm.map _).nodup_iff.mpr hnodup
  rw [value_eq_of_mem hnodup hp, value_eq_of_mem hnodup' (hperm.mem_iff.mpr hp)]

/-- What the replacer does depends on the values of the keys alone. -/
theorem replace_congr {pairs' : List (List α × List α)}
    (hsep : Separate (keysOf pairs))
    (hmem : ∀ k, k ∈ keysOf pairs' ↔ k ∈ keysOf pairs)
    (hvalue : ∀ k ∈ keysOf pairs, value pairs' k = value pairs k)
    (s : List α) : replace pairs' s = replace pairs s := by
  have hsep' : Separate (keysOf pairs') := hsep.of_subset fun k => (hmem k).mp
  induction s using hsep.induct with
  | nil => rfl
  | key k hk s ih =>
      rw [replace_key hsep hk, replace_key hsep' ((hmem k).mpr hk),
        hvalue k hk, ih]
  | element a s hnone ih =>
      have hnone' : ∀ k ∈ keysOf pairs', ¬k <+: a :: s :=
        fun k hk => hnone k ((hmem k).mp hk)
      rw [replace_element hnone, replace_element hnone', ih]

/-- **The order of the pairs** does not matter. -/
theorem replace_perm {pairs' : List (List α × List α)}
    (hperm : pairs'.Perm pairs) (hsep : Separate (keysOf pairs))
    (hnodup : (keysOf pairs).Nodup) (s : List α) :
    replace pairs' s = replace pairs s :=
  replace_congr hsep (fun _ => (hperm.map _).mem_iff)
    (fun _ hk => value_perm hperm hnodup hk) s

end Replace

/-! ## The replacer of bytes -/

omit [DecidableEq α] in
theorem find_keysOf (pairs : List (List α × List α)) (q : List α → Bool) :
    (keysOf pairs).find? q = (pairs.find? fun p => q p.1).map Prod.fst := by
  rw [keysOf, List.find?_map]
  rfl

/-- The value of the first key of which something is true is that of the first
such pair. -/
theorem value_of_find {pairs : List (List α × List α)} {q : List α → Bool}
    {p : List α × List α} (hfind : (pairs.find? fun p => q p.1) = some p) :
    value pairs p.1 = p.2 := by
  rw [value]
  induction pairs with
  | nil => cases hfind
  | cons r pairs ih =>
      rw [List.find?_cons] at hfind
      cases hq : q r.1 with
      | true =>
          rw [hq] at hfind
          obtain rfl := Option.some.inj hfind
          rw [List.lookup_cons_self]
          rfl
      | false =>
          rw [hq] at hfind
          have hp : q p.1 = true :=
            List.find?_some (p := fun p : List α × List α => q p.1) hfind
          have hne : p.1 ≠ r.1 := by
            intro heq
            rw [heq, hq] at hp
            cases hp
          rw [List.lookup_cons, beq_false_of_ne hne]
          exact ih hfind

/-- **`strings.NewReplacer`** is the replacer of bytes. -/
theorem replacer_eq (pairs : List (GoString × GoString)) (s : GoString) :
    s.replacer pairs = replace pairs s := by
  have hfrom : ∀ (s : GoString) (skip : Nat),
      GoString.replacerFrom pairs skip s =
        (partsFrom (keysOf pairs) skip s).flatMap (fill pairs) := by
    intro s
    induction s with
    | nil => exact fun skip => rfl
    | cons b bs ih =>
        intro skip
        cases skip with
        | succ skip => exact ih skip
        | zero =>
            rw [GoString.replacerFrom, partsFrom,
              find_keysOf pairs fun k => k.isPrefixOf (b :: bs)]
            cases hfind : pairs.find? fun p => p.1.isPrefixOf (b :: bs) with
            | none =>
                show b :: GoString.replacerFrom pairs 0 bs = _
                rw [ih 0]
                rfl
            | some p =>
                have hvalue := value_of_find
                  (q := fun k => k.isPrefixOf (b :: bs)) hfind
                show p.2 ++ GoString.replacerFrom pairs (p.1.length - 1) bs = _
                rw [ih, ← hvalue]
                rfl
  exact hfrom s 0

end Hdns.Verified.Replacer

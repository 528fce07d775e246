import Mathlib.Data.List.Basic

/-!
# Texts of blocks

A decoder takes the first block off a text and leaves the rest.  What a loop
over such a decoder does with a text is a matter of the list of its blocks, and
a text that is one block by itself stands in front of that list wherever it is
put in front of a text.

## Main results

* `parseLoop_eq` — a loop that parses block after block parses the list.
-/

namespace Hdns.Verified.Blocks

variable {α β γ ε : Type}

/-- A decoder takes something off the text. -/
structure Decoder (α β : Type) where
  decode : List α → Option (β × List α)
  shrinks : ∀ {xs b rest}, decode xs = some (b, rest) →
    rest.length < xs.length

/-- The blocks of a text, up to the first place where there is none. -/
def Decoder.blocks (d : Decoder α β) (xs : List α) : List β :=
  match _h : d.decode xs with
  | none => []
  | some (b, rest) => b :: d.blocks rest
termination_by xs.length
decreasing_by exact d.shrinks _h

/-- The text is the one block `b`, whatever follows. -/
def Decoder.Single (d : Decoder α β) (xs : List α) (b : β) : Prop :=
  ∀ ys, d.decode (xs ++ ys) = some (b, ys)

section

variable {d : Decoder α β} {xs rest : List α} {b : β}

theorem blocks_none (h : d.decode xs = none) : d.blocks xs = [] := by
  rw [Decoder.blocks]
  split
  · rfl
  · rename_i heq
    rw [h] at heq
    cases heq

theorem blocks_some (h : d.decode xs = some (b, rest)) :
    d.blocks xs = b :: d.blocks rest := by
  rw [Decoder.blocks]
  split
  · rename_i heq
    rw [h] at heq
    cases heq
  · rename_i heq
    rw [h] at heq
    cases heq
    rfl

/-- There is no block in an empty text. -/
theorem decode_nil (d : Decoder α β) : d.decode [] = none := by
  cases h : d.decode [] with
  | none => rfl
  | some found => exact absurd (d.shrinks h) (Nat.not_lt_zero _)

theorem Decoder.Single.decode_self (h : d.Single xs b) :
    d.decode xs = some (b, []) := by
  rw [← h [], List.append_nil]

/-- A loop that takes block after block off a text and appends what it parses to
a list, until the text is empty or has no block. -/
def parseLoop (d : Decoder α β) (parse : β → Except ε γ) (parsed : List γ)
    (xs : List α) : Except ε (List γ) :=
  if 0 < xs.length then
    match _h : d.decode xs with
    | none => .ok parsed
    | some (b, rest) =>
        match parse b with
        | .error err => .error err
        | .ok c => parseLoop d parse (parsed ++ [c]) rest
  else .ok parsed
termination_by xs.length
decreasing_by exact d.shrinks _h

/-- **A loop over the blocks** parses the list of them. -/
theorem parseLoop_eq (d : Decoder α β) (parse : β → Except ε γ)
    (parsed : List γ) (xs : List α) :
    parseLoop d parse parsed xs =
      ((d.blocks xs).mapM parse).map (parsed ++ ·) := by
  fun_induction parseLoop d parse parsed xs with
  | case1 parsed xs hpos hnone =>
      rw [blocks_none hnone]
      simp [pure, Except.pure, Except.map]
  | case2 parsed xs hpos b rest hsome err herr =>
      rw [blocks_some hsome, List.mapM_cons, herr]
      rfl
  | case3 parsed xs hpos b rest hsome c hc ih =>
      rw [ih, blocks_some hsome, List.mapM_cons, hc]
      cases (d.blocks rest).mapM parse with
      | error err => rfl
      | ok cs =>
          show Except.ok (parsed ++ [c] ++ cs) = Except.ok (parsed ++ c :: cs)
          rw [List.append_assoc, List.singleton_append]
  | case4 parsed xs hempty =>
      have hnil : xs = [] :=
        List.length_eq_zero_iff.mp (Nat.eq_zero_of_not_pos hempty)
      rw [hnil, blocks_none (decode_nil d)]
      simp [pure, Except.pure, Except.map]

end

end Hdns.Verified.Blocks

import Hdns.Verified.Json
import Mathlib.Algebra.Field.Rat
import Mathlib.Data.List.TakeWhile

/-!
# Number literals

The number that a literal stands for may have a fraction and an exponent.
`strconv.ParseInt` accepts a sign and digits only, and a number of 64 bits.

## Main results

* `numberValue_of_parseInt` — what `ParseInt` accepts is read as the number it
  stands for.
-/

namespace Hdns.Verified.Json

open Hdns.Verified.GoString

/-- The number that a sequence of digits stands for. -/
def natOf (ds : GoString) : Nat :=
  ds.foldl (fun n b => n * 10 + (b.toNat - 0x30)) 0

/-- There is a minus sign in front. -/
def isNegative (text : GoString) : Prop := text.head? = some 0x2D

instance (text : GoString) : Decidable (isNegative text) :=
  inferInstanceAs (Decidable (_ = _))

/-- The text behind the sign. -/
def magnitude (text : GoString) : GoString :=
  if text.head? = some 0x2D ∨ text.head? = some 0x2B then text.tail else text

/-- The exponent, with the `e` in front of it. -/
def exponentOf : GoString → Int
  | [] => 0
  | _ :: s => if isNegative s then -natOf (magnitude s) else natOf (magnitude s)

/-- The number that a literal stands for. -/
def numberValue (text : GoString) : Rat :=
  let s := magnitude text
  let whole := s.takeWhile isDigit
  let rest := s.dropWhile isDigit
  let fraction := if rest.head? = some 0x2E then rest.tail.takeWhile isDigit
    else []
  let rest := if rest.head? = some 0x2E then rest.tail.dropWhile isDigit
    else rest
  let n := natOf (whole ++ fraction) *
    (10 : Rat) ^ (exponentOf rest - fraction.length)
  if isNegative text then -n else n

example : numberValue (lit "-6.51e2") = -651 := by decide +kernel

/-- `strconv.ParseInt(s, 10, 64)`. -/
def parseInt (s : GoString) : Option Int :=
  let digits := magnitude s
  if digits = [] ∨ ¬digits.all isDigit then none
  else
    let n : Int := if isNegative s then -natOf digits else natOf digits
    if -2 ^ 63 ≤ n ∧ n < 2 ^ 63 then some n else none

/-- **What is accepted** is the number the literal stands for. -/
theorem numberValue_of_parseInt {text : GoString} {n : Int}
    (h : parseInt text = some n) : numberValue text = n := by
  unfold parseInt at h
  dsimp only at h
  by_cases hdigits : magnitude text = [] ∨ ¬(magnitude text).all isDigit
  · rw [if_pos hdigits] at h
    cases h
  rw [if_neg hdigits] at h
  have hall : ∀ b ∈ magnitude text, isDigit b = Bool.true := by
    have := (not_or.mp hdigits).2
    simpa using this
  have htake : (magnitude text).takeWhile isDigit = magnitude text :=
    List.takeWhile_eq_self_iff.mpr hall
  have hdrop : (magnitude text).dropWhile isDigit = [] :=
    List.dropWhile_eq_nil_iff.mpr hall
  have hvalue : numberValue text = ((if isNegative text then
      -(natOf (magnitude text) : Int) else natOf (magnitude text) : Int) : Rat) := by
    unfold numberValue
    simp only [htake, hdrop]
    by_cases hsign : isNegative text
    · simp [hsign, exponentOf]
    · simp [hsign, exponentOf]
  rw [Option.ite_none_right_eq_some] at h
  rw [hvalue, Option.some.inj h.2]

end Hdns.Verified.Json

import Hdns.Verified.JsonNumber

/-!
# Integers in decimal

`strconv.FormatInt` writes an integer in decimal, and `strconv.ParseInt` reads
it back.

## Main results

* `formatInt_digits` — a number is written with digits only, and what they stand
  for is the number.
* `parseInt_formatInt` — every number of 64 bits is read back.
-/

namespace Hdns.Verified.Decimal

open Hdns.Verified.GoString
open Hdns.Verified.Json

/-- `strconv.FormatInt(n, 10)`. -/
def formatInt (n : Int) : GoString := lit (toString n)

/-- The byte of a character that has one. -/
def byteOf (c : Char) : UInt8 := UInt8.ofNat c.toNat

theorem lit_ofList (cs : List Char) :
    lit (String.ofList cs) = cs.flatMap String.utf8EncodeChar := by
  simp [lit, List.utf8Encode]

theorem utf8EncodeChar_ascii {c : Char} (h : c.toNat ≤ 0x7F) :
    String.utf8EncodeChar c = [byteOf c] := by
  have hval : c.val.toNat ≤ 127 := h
  simp only [String.utf8EncodeChar, hval, if_true]
  rfl

theorem lit_ascii {cs : List Char} (h : ∀ c ∈ cs, c.toNat ≤ 0x7F) :
    lit (String.ofList cs) = cs.map byteOf := by
  rw [lit_ofList]
  induction cs with
  | nil => rfl
  | cons c cs ih =>
      rw [List.flatMap_cons, utf8EncodeChar_ascii (h c List.mem_cons_self),
        ih fun d hd => h d (List.mem_cons_of_mem _ hd)]
      rfl

/-! ## Digits -/

theorem isDigit_range {c : Char} (h : c.isDigit = true) :
    0x30 ≤ c.toNat ∧ c.toNat ≤ 0x39 := by
  simp only [Char.isDigit, Bool.and_eq_true, decide_eq_true_eq] at h
  exact h

/-- What a sequence of digits stands for is read with the same fold. -/
theorem natOf_map (cs : List Char) (h : ∀ c ∈ cs, c.isDigit = true) :
    natOf (cs.map byteOf) = Nat.ofDigitChars 10 cs 0 := by
  suffices hfold : ∀ init, (cs.map byteOf).foldl
      (fun n b => n * 10 + (b.toNat - 0x30)) init =
      Nat.ofDigitChars 10 cs init from hfold 0
  induction cs with
  | nil => exact fun _ => rfl
  | cons c cs ih =>
      intro init
      obtain ⟨hlow, hhigh⟩ := isDigit_range (h c List.mem_cons_self)
      have hbyte : (byteOf c).toNat = c.toNat := by
        simp only [byteOf, UInt8.toNat_ofNat']
        omega
      rw [List.map_cons, List.foldl_cons, Nat.ofDigitChars_cons, hbyte,
        ih fun d hd => h d (List.mem_cons_of_mem _ hd), Nat.mul_comm init]
      rfl

theorem isDigit_byteOf {c : Char} (h : c.isDigit = true) :
    isDigit (byteOf c) = true := by
  obtain ⟨hlow, hhigh⟩ := isDigit_range h
  have hbyte : (byteOf c).toNat = c.toNat := by
    simp only [byteOf, UInt8.toNat_ofNat']
    omega
  simp only [isDigit, UInt8.le_iff_toNat_le, Bool.and_eq_true,
    decide_eq_true_eq, hbyte]
  exact ⟨hlow, hhigh⟩

/-- The digits of a number. -/
def digits (n : Nat) : GoString := (Nat.toDigits 10 n).map byteOf

theorem mem_digits {n : Nat} {b : UInt8} (h : b ∈ digits n) :
    isDigit b = true := by
  obtain ⟨c, hc, rfl⟩ := List.mem_map.mp h
  exact isDigit_byteOf (Nat.isDigit_of_mem_toDigits (by omega) (by omega) hc)

theorem digits_ne_nil (n : Nat) : digits n ≠ [] := by
  simp [digits]

theorem natOf_digits (n : Nat) : natOf (digits n) = n := by
  rw [digits, natOf_map _ fun c hc =>
    Nat.isDigit_of_mem_toDigits (by omega) (by omega) hc]
  exact Nat.ofDigitChars_ten_toDigits

private theorem lit_repr (n : Nat) : lit n.repr = digits n := by
  have hascii : ∀ c ∈ Nat.toDigits 10 n, c.toNat ≤ 0x7F := by
    intro c hc
    have hrange := isDigit_range
      (Nat.isDigit_of_mem_toDigits (b := 10) (by omega) (by omega) hc)
    omega
  rw [Nat.repr_eq_ofList_toDigits, lit_ascii hascii]
  rfl

/-- **What is written** for a number that is not negative. -/
theorem formatInt_digits {n : Int} (h : 0 ≤ n) :
    formatInt n = digits n.toNat := by
  rw [formatInt, Int.toString_eq_repr, Int.repr_eq_if, if_pos h, lit_repr]

/-- What is written for a negative one. -/
theorem formatInt_minus {n : Int} (h : n < 0) :
    formatInt n = 0x2D :: digits (-n).toNat := by
  have hlit : ∀ s : String, lit ("-" ++ s) = 0x2D :: lit s := by
    intro s
    simp [lit]
    rfl
  rw [formatInt, Int.toString_eq_repr, Int.repr_eq_if, if_neg (by omega), hlit,
    lit_repr]

/-! ## Reading -/

private theorem digits_head (n : Nat) (b : UInt8) (hb : isDigit b = false) :
    (digits n).head? ≠ some b := by
  intro h
  rw [mem_digits (List.mem_of_mem_head? h)] at hb
  cases hb

theorem magnitude_digits (n : Nat) : magnitude (digits n) = digits n := by
  have hminus := digits_head n 0x2D (by decide)
  have hplus := digits_head n 0x2B (by decide)
  simp [magnitude, hminus, hplus]

theorem all_digits (n : Nat) : (digits n).all isDigit = true :=
  List.all_eq_true.mpr fun _ hb => mem_digits hb

/-- **Read back**: `ParseInt` undoes `FormatInt`. -/
theorem parseInt_formatInt {n : Int} (hlow : -2 ^ 63 ≤ n) (hhigh : n < 2 ^ 63) :
    parseInt (formatInt n) = some n := by
  rcases Int.lt_or_le n 0 with hn | hn
  · have hnat : ((-n).toNat : Int) = -n := Int.toNat_of_nonneg (by omega)
    have hmagnitude : magnitude (0x2D :: digits (-n).toNat) =
        digits (-n).toNat := by
      simp [magnitude]
    have hsign : isNegative (0x2D :: digits (-n).toNat) := rfl
    rw [formatInt_minus hn]
    simp only [parseInt, hmagnitude, digits_ne_nil, all_digits, not_true_eq_false,
      or_self, if_false, hsign, if_true, natOf_digits, hnat]
    rw [if_pos ⟨by omega, by omega⟩]
    simp
  · have hnat : (n.toNat : Int) = n := Int.toNat_of_nonneg hn
    have hsign : ¬isNegative (digits n.toNat) := digits_head _ _ (by decide)
    rw [formatInt_digits hn]
    simp only [parseInt, magnitude_digits, digits_ne_nil, all_digits,
      not_true_eq_false, or_self, if_false, hsign, natOf_digits, hnat]
    rw [if_pos ⟨hlow, hhigh⟩]

end Hdns.Verified.Decimal

import Hdns.Verified.GoString
import Mathlib.Logic.Function.Basic

/-!
# MIME headers

`net/http` keeps the fields of a header in a map from names to lists of values.
A name that consists of token bytes is put into its canonical spelling first: an
upper-case letter at the front and after each hyphen, lower-case letters
elsewhere.  A name with any other byte is used as it is.

## Main results

* `canonicalMIMEHeaderKey_eq_iff` — which names are one field.
-/

namespace Hdns.Verified.MimeHeader

open Hdns.Verified.GoString

/-! ## Names -/

/-- The bytes of a token that are neither letters nor digits. -/
def tokenSigns : GoString := "!#$%&'*+-.^_`|~"

/-- `validHeaderFieldByte`. -/
def validHeaderFieldByte (b : UInt8) : Bool :=
  (0x30 ≤ b && b ≤ 0x39) || (0x41 ≤ b && b ≤ 0x5A) ||
    (0x61 ≤ b && b ≤ 0x7A) || List.contains tokenSigns b

/-- A byte in its canonical case. -/
def canonicalByte (upper : Bool) (b : UInt8) : UInt8 :=
  if upper && 0x61 ≤ b && b ≤ 0x7A then b - 0x20
  else if !upper && 0x41 ≤ b && b ≤ 0x5A then b + 0x20
  else b

/-- The rest of a name in its canonical spelling; `upper` says whether a letter
at its front is an upper-case one. -/
def canonicalFrom : Bool → GoString → GoString
  | _, [] => []
  | upper, b :: s => canonicalByte upper b :: canonicalFrom (b == 0x2D) s

/-- A name that has a canonical spelling. -/
def IsToken (s : GoString) : Prop := ∀ b ∈ s, validHeaderFieldByte b = true

instance (s : GoString) : Decidable (IsToken s) :=
  inferInstanceAs (Decidable (∀ b ∈ s, validHeaderFieldByte b = true))

/-- `CanonicalMIMEHeaderKey`. -/
def canonicalMIMEHeaderKey (s : GoString) : GoString :=
  if IsToken s then canonicalFrom true s else s

example : canonicalMIMEHeaderKey "content-TYPE" = "Content-Type" := by
  decide +kernel

/-- A byte without the case of ASCII letters. -/
def lowerByte (b : UInt8) : UInt8 :=
  if 0x41 ≤ b && b ≤ 0x5A then b + 0x20 else b

/-- Two texts are equal but for the case of ASCII letters. -/
def EqualFold (s t : GoString) : Prop := s.map lowerByte = t.map lowerByte

instance (s t : GoString) : Decidable (EqualFold s t) :=
  inferInstanceAs (Decidable (s.map lowerByte = t.map lowerByte))

/-- What the two cases of a letter share. -/
theorem byte_cases (b : UInt8) :
    (∀ upper, lowerByte (canonicalByte upper b) = lowerByte b) ∧
    (∀ upper, canonicalByte upper (lowerByte b) = canonicalByte upper b) ∧
    (lowerByte b = 0x2D ↔ b = 0x2D) ∧
    (validHeaderFieldByte (lowerByte b) = validHeaderFieldByte b) := by
  revert b
  apply forall_byte
  decide +kernel

/-- The canonical spelling has the letters of the name. -/
theorem canonicalFrom_fold (upper : Bool) (s : GoString) :
    (canonicalFrom upper s).map lowerByte = s.map lowerByte := by
  induction s generalizing upper with
  | nil => rfl
  | cons b s ih =>
      rw [canonicalFrom, List.map_cons, List.map_cons, ih,
        (byte_cases b).1 upper]

/-- The case of the letters does not matter for the canonical spelling. -/
theorem canonicalFrom_lower (upper : Bool) (s : GoString) :
    canonicalFrom upper (s.map lowerByte) = canonicalFrom upper s := by
  induction s generalizing upper with
  | nil => rfl
  | cons b s ih =>
      have hhyphen : (lowerByte b == 0x2D) = (b == 0x2D) := by
        rw [Bool.eq_iff_iff, beq_iff_eq, beq_iff_eq]
        exact (byte_cases b).2.2.1
      rw [List.map_cons, canonicalFrom, canonicalFrom, ih, hhyphen,
        (byte_cases b).2.1 upper]

theorem canonicalFrom_eq_iff {upper : Bool} {s t : GoString} :
    canonicalFrom upper s = canonicalFrom upper t ↔ EqualFold s t := by
  constructor
  · intro h
    rw [EqualFold, ← canonicalFrom_fold upper s, h, canonicalFrom_fold]
  · intro h
    rw [← canonicalFrom_lower upper s, h, canonicalFrom_lower]

/-- Whether a name is a token does not depend on the case of its letters. -/
theorem EqualFold.isToken_iff {s t : GoString} (h : EqualFold s t) :
    IsToken s ↔ IsToken t := by
  have hlower : ∀ s : GoString, IsToken (s.map lowerByte) ↔ IsToken s := by
    intro s
    simp only [IsToken, List.forall_mem_map, (byte_cases _).2.2.2]
  rw [← hlower s, h, hlower]

/-- The canonical spelling of a name is a token if the name is one. -/
theorem isToken_canonical {s : GoString} :
    IsToken (canonicalMIMEHeaderKey s) ↔ IsToken s := by
  unfold canonicalMIMEHeaderKey
  by_cases hs : IsToken s
  · rw [if_pos hs]
    exact EqualFold.isToken_iff (canonicalFrom_fold true s)
  · rw [if_neg hs]

/-- **Which names are one field**: tokens that are equal but for the case of
their letters. -/
theorem canonicalMIMEHeaderKey_eq_iff {s t : GoString} :
    canonicalMIMEHeaderKey s = canonicalMIMEHeaderKey t ↔
      s = t ∨ IsToken s ∧ EqualFold s t := by
  constructor
  · intro h
    have htoken : IsToken s ↔ IsToken t := by
      rw [← isToken_canonical, h, isToken_canonical]
    unfold canonicalMIMEHeaderKey at h
    by_cases hs : IsToken s
    · rw [if_pos hs, if_pos (htoken.mp hs), canonicalFrom_eq_iff] at h
      exact .inr ⟨hs, h⟩
    · rw [if_neg hs, if_neg (htoken.not.mp hs)] at h
      exact .inl h
  · rintro (rfl | ⟨hs, h⟩)
    · rfl
    · unfold canonicalMIMEHeaderKey
      rw [if_pos hs, if_pos (h.isToken_iff.mp hs), canonicalFrom_eq_iff]
      exact h

/-! ## Headers -/

/-- `http.Header`. -/
abbrev Header := GoString → Option (List GoString)

namespace Header

/-- `make(http.Header)`. -/
def empty : Header := fun _ => none

/-- `Header.Set`. -/
def set (h : Header) (key value : GoString) : Header :=
  Function.update h (canonicalMIMEHeaderKey key) (some [value])

/-- `Header.Get`. -/
def get (h : Header) (key : GoString) : GoString :=
  ((h (canonicalMIMEHeaderKey key)).getD []).headD []

end Header

end Hdns.Verified.MimeHeader

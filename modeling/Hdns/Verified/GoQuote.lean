import Hdns.Verified.JsonString
import Mathlib.Algebra.Group.Nat.Defs

/-!
# Quoting a text as Go does

`strconv.Quote` leaves printable characters as they are and escapes the others.
Which characters outside ASCII are printable is a table of the library; it is a
parameter here.

## Main results

* `encode_rune` — the bytes of a character are those of its number.
* `appendEscapedRune_cases` — what is written for a character.
* `valid_quote`, `quote_ge` — a quoted text is a valid line.
-/

namespace Hdns.Verified.GoQuote

open Hdns.Verified.GoString
open Hdns.Verified.Json

/-! ## Package `strconv` -/

/-- `strconv.IsPrint`; `wide` is the table for the characters from U+0080 on. -/
def isPrint (wide : Nat → Bool) (r : Nat) : Bool :=
  if r < 0x80 then 0x20 ≤ r && r < 0x7F else wide r

/-- `utf8.ValidRune`. -/
def validRune (r : Nat) : Bool := r ≤ 0x10FFFF && !isSurrogate r

/-- The last `k` hexadecimal digits of a number. -/
def hex : Nat → Nat → GoString
  | 0, _ => []
  | k + 1, r => hexChar (r / 16 ^ k % 16) :: hex k r

/-- The escapes of one letter. -/
def letters : List (Nat × UInt8) :=
  [(0x07, 0x61), (0x08, 0x62), (0x0C, 0x66), (0x0A, 0x6E), (0x0D, 0x72),
    (0x09, 0x74), (0x0B, 0x76)]

/-- `appendEscapedRune`, with a double quote. -/
def appendEscapedRune (wide : Nat → Bool) (r : Nat) : GoString :=
  if r = 0x22 ∨ r = 0x5C then [0x5C, UInt8.ofNat r]
  else if isPrint wide r then encodeRune r
  else match letters.lookup r with
    | some letter => [0x5C, letter]
    | none =>
        if r < 0x20 ∨ r = 0x7F then lit "\\x" ++ hex 2 r
        else if ¬validRune r then lit "\\u" ++ hex 4 runeError
        else if r < 0x10000 then lit "\\u" ++ hex 4 r
        else lit "\\U" ++ hex 8 r

/-- A rune as `appendQuotedWith` writes it; a byte that is no part of a
character is escaped by its number. -/
def quoteRune (wide : Nat → Bool) (r : Nat × GoString) : GoString :=
  match r.2 with
  | [b] =>
      if r.1 = runeError then lit "\\x" ++ hex 2 b.toNat
      else appendEscapedRune wide r.1
  | _ => appendEscapedRune wide r.1

/-- `strconv.Quote`, which is what `%q` writes for a string. -/
def quote (wide : Nat → Bool) (s : GoString) : GoString :=
  0x22 :: (s.runes.flatMap (quoteRune wide) ++ [0x22])

example : quote (fun _ => true) (lit "a\"\n") = lit "\"a\\\"\\n\"" := by
  decide +kernel

/-! ## Characters and their bytes -/

/-- What the first byte of a sequence says about the character. -/
private def LeadRange (b : UInt8) (l : Lead) : Prop :=
  (l.size = 2 ∧ 0xC2 ≤ b.toNat ∧ b.toNat ≤ 0xDF ∧ 0x80 ≤ l.lo.toNat ∧
    l.hi.toNat ≤ 0xBF) ∨
  (l.size = 3 ∧ 0xE0 ≤ b.toNat ∧ b.toNat ≤ 0xEF ∧ 0x80 ≤ l.lo.toNat ∧
    l.hi.toNat ≤ 0xBF ∧ (b.toNat = 0xE0 → 0xA0 ≤ l.lo.toNat) ∧
    (b.toNat = 0xED → l.hi.toNat ≤ 0x9F)) ∨
  (l.size = 4 ∧ 0xF0 ≤ b.toNat ∧ b.toNat ≤ 0xF4 ∧ 0x80 ≤ l.lo.toNat ∧
    l.hi.toNat ≤ 0xBF ∧ (b.toNat = 0xF0 → 0x90 ≤ l.lo.toNat) ∧
    (b.toNat = 0xF4 → l.hi.toNat ≤ 0x8F))

private instance (b : UInt8) (l : Lead) : Decidable (LeadRange b l) :=
  inferInstanceAs (Decidable (_ ∨ _))

private theorem lead_range {b : UInt8} {l : Lead} (h : lead b = some l) :
    LeadRange b l := by
  have hall : ∀ b, ∀ l ∈ (lead b).toList, LeadRange b l := by
    apply forall_byte
    decide +kernel
  have hb := hall b l
  rw [h] at hb
  exact hb (List.mem_singleton_self l)

private theorem ofNat_eq {n : Nat} {b : UInt8} (h : n = b.toNat) :
    UInt8.ofNat n = b := by
  rw [h, UInt8.ofNat_toNat]

/-- A sequence of bytes is the encoding of the character it stands for. -/
private theorem encode_tail {b : UInt8} {l : Lead} {u : GoString} {c : Nat}
    (hlead : LeadRange b l) (h : decodeTail b l u = some c) :
    encodeRune c = (b :: u).take l.size ∧ validRune c = true ∧ 0x80 ≤ c := by
  unfold LeadRange at hlead
  unfold decodeTail at h
  split at h
  · next c₁ rest hsize =>
    split at h
    · next hc₁ =>
      have hc₁ := toNat_bounds hc₁
      have hr := Option.some.inj h
      unfold payload at hr
      have hge : ¬c < 0x80 := by omega
      have hlt : c < 0x800 := by omega
      have hvalid : validRune c = true := by
        simp [validRune, isSurrogate]
        omega
      rw [encodeRune, if_neg hge, if_pos hlt, hsize, List.take_succ_cons,
        List.take_succ_cons, List.take_zero]
      rw [ofNat_eq (show 0xC0 + c / 64 = b.toNat by omega),
        ofNat_eq (show 0x80 + c % 64 = c₁.toNat by omega)]
      exact ⟨rfl, hvalid, by omega⟩
    · cases h
  · next c₁ c₂ rest hsize =>
    split at h
    · next hc =>
      have hc₁ := toNat_bounds hc.1
      have hc₂ := isCont_bounds hc.2
      have hr := Option.some.inj h
      unfold payload at hr
      have hge : ¬c < 0x800 := by omega
      have hlt : c < 0x10000 := by omega
      have hsurrogate : ¬(0xD800 ≤ c ∧ c ≤ 0xDFFF) := by omega
      have hvalid : ¬(isSurrogate c || decide (0x10FFFF < c)) = true := by
        simp [isSurrogate]
        omega
      have hvalid' : validRune c = true := by
        simp [validRune, isSurrogate]
        omega
      rw [encodeRune, if_neg (by omega), if_neg hge, if_neg hvalid, if_pos hlt,
        hsize, List.take_succ_cons, List.take_succ_cons, List.take_succ_cons,
        List.take_zero]
      rw [ofNat_eq (show 0xE0 + c / 4096 = b.toNat by omega),
        ofNat_eq (show 0x80 + c / 64 % 64 = c₁.toNat by omega),
        ofNat_eq (show 0x80 + c % 64 = c₂.toNat by omega)]
      exact ⟨rfl, hvalid', by omega⟩
    · cases h
  · next c₁ c₂ c₃ rest hsize =>
    split at h
    · next hc =>
      have hc₁ := toNat_bounds hc.1
      have hc₂ := isCont_bounds hc.2.1
      have hc₃ := isCont_bounds hc.2.2
      have hr := Option.some.inj h
      unfold payload at hr
      have hge : ¬c < 0x10000 := by omega
      have hlt : c ≤ 0x10FFFF := by omega
      have hvalid : ¬(isSurrogate c || decide (0x10FFFF < c)) = true := by
        simp [isSurrogate]
        omega
      have hvalid' : validRune c = true := by
        simp [validRune, isSurrogate]
        omega
      rw [encodeRune, if_neg (by omega), if_neg (by omega), if_neg hvalid,
        if_neg hge, hsize, List.take_succ_cons, List.take_succ_cons,
        List.take_succ_cons, List.take_succ_cons, List.take_zero]
      rw [ofNat_eq (show 0xF0 + c / 262144 = b.toNat by omega),
        ofNat_eq (show 0x80 + c / 4096 % 64 = c₁.toNat by omega),
        ofNat_eq (show 0x80 + c / 64 % 64 = c₂.toNat by omega),
        ofNat_eq (show 0x80 + c % 64 = c₃.toNat by omega)]
      exact ⟨rfl, hvalid', by omega⟩
    · cases h
  · cases h

/-- **The bytes of a character are those of its number.** -/
theorem encode_rune {s : GoString} {r : Nat × GoString} (hr : r ∈ s.runes)
    (hproper : Proper r) :
    encodeRune r.1 = r.2 ∧ validRune r.1 = true ∧
      (0x80 ≤ r.1 ∨ ∃ b : UInt8, r = (b.toNat, [b]) ∧ b < 0x80) := by
  obtain ⟨-, b, u, rfl⟩ := mem_runes _ s (Nat.le_refl _) r hr
  cases hlead : lead b with
  | none =>
      have hwidth : runeWidth (b :: u) = 1 := by
        simp [runeWidth, decodeRune, hlead]
      have hrune : decodeRune (b :: u) =
          (if b < 0x80 then b.toNat else runeError, 1) := by
        simp [decodeRune, hlead]
      rw [hwidth, hrune] at hproper ⊢
      by_cases hb : b < 0x80
      · have hlt : b.toNat < 0x80 := UInt8.lt_iff_toNat_lt.mp hb
        simp only [if_pos hb, List.take_succ_cons, List.take_zero]
        refine ⟨?_, ?_, .inr ⟨b, rfl, hb⟩⟩
        · rw [encodeRune, if_pos hlt, UInt8.ofNat_toNat]
        · simp [validRune, isSurrogate]
          omega
      · simp [Proper, hb] at hproper
  | some l =>
      cases htail : decodeTail b l u with
      | none => simp [Proper, runeWidth, decodeRune, hlead, htail] at hproper
      | some c =>
          obtain ⟨hbytes, hvalid, hge⟩ := encode_tail (lead_range hlead) htail
          simp only [runeWidth, decodeRune, hlead, htail]
          exact ⟨hbytes, hvalid, .inl hge⟩

/-- The bytes of a character outside ASCII are outside ASCII. -/
theorem encodeRune_ge {r : Nat} (hvalid : validRune r = true) (h : 0x80 ≤ r) :
    ∀ b ∈ encodeRune r, 0x80 ≤ b := by
  have hofNat : ∀ n, 0x80 ≤ n → n < 256 → 0x80 ≤ UInt8.ofNat n := by
    intro n hge hlt
    rw [UInt8.le_iff_toNat_le, UInt8.toNat_ofNat']
    simp
    omega
  simp only [validRune, Bool.and_eq_true, decide_eq_true_eq,
    Bool.not_eq_true'] at hvalid
  obtain ⟨hlt, hsurrogate⟩ := hvalid
  unfold encodeRune
  rw [if_neg (by omega)]
  split
  · simp only [List.forall_mem_cons, List.not_mem_nil, false_implies,
      implies_true, and_true]
    exact ⟨hofNat _ (by omega) (by omega), hofNat _ (by omega) (by omega)⟩
  rw [if_neg (by simp [hsurrogate]; omega)]
  split
  · simp only [List.forall_mem_cons, List.not_mem_nil, false_implies,
      implies_true, and_true]
    exact ⟨hofNat _ (by omega) (by omega), hofNat _ (by omega) (by omega),
      hofNat _ (by omega) (by omega)⟩
  · simp only [List.forall_mem_cons, List.not_mem_nil, false_implies,
      implies_true, and_true]
    exact ⟨hofNat _ (by omega) (by omega), hofNat _ (by omega) (by omega),
      hofNat _ (by omega) (by omega), hofNat _ (by omega) (by omega)⟩

/-! ## What is written -/

theorem hex_ascii (k r : Nat) : ∀ b ∈ hex k r, 0x20 ≤ b ∧ b < 0x80 := by
  have hdigit : ∀ n < 16, 0x20 ≤ hexChar n ∧ hexChar n < 0x80 := by
    decide +kernel
  induction k with
  | zero => simp [hex]
  | succ k ih =>
      rw [hex, List.forall_mem_cons]
      exact ⟨hdigit _ (Nat.mod_lt _ (by omega)), ih⟩

private theorem escape_ascii {letter : GoString}
    (h : ∀ b ∈ letter, 0x20 ≤ b ∧ b < 0x80) (k r : Nat) :
    ∀ b ∈ letter ++ hex k r, 0x20 ≤ b ∧ b < 0x80 :=
  List.forall_mem_append.mpr ⟨h, hex_ascii k r⟩

/-- A character is written in ASCII without control characters, or it is outside
ASCII and written as it is. -/
theorem appendEscapedRune_cases (wide : Nat → Bool) (r : Nat) :
    (∀ b ∈ appendEscapedRune wide r, 0x20 ≤ b ∧ b < 0x80) ∨
      0x80 ≤ r ∧ appendEscapedRune wide r = encodeRune r := by
  unfold appendEscapedRune
  split
  · next hspecial =>
    rcases hspecial with rfl | rfl
    · exact .inl (by decide +kernel)
    · exact .inl (by decide +kernel)
  split
  · next hprint =>
    by_cases hascii : r < 0x80
    · simp only [isPrint, if_pos hascii, Bool.and_eq_true,
        decide_eq_true_eq] at hprint
      have hall : ∀ n < 0x7F, 0x20 ≤ n →
          0x20 ≤ UInt8.ofNat n ∧ UInt8.ofNat n < 0x80 := by decide +kernel
      rw [encodeRune, if_pos hascii, List.forall_mem_singleton]
      exact .inl (hall r hprint.2 hprint.1)
    · exact .inr ⟨by omega, rfl⟩
  split
  · next letter hletter =>
    obtain ⟨before, after, hsplit, -⟩ := List.lookup_eq_some_iff.mp hletter
    have hall : ∀ e ∈ letters, 0x20 ≤ e.2 ∧ e.2 < 0x80 := by decide +kernel
    have hmem := hall (r, letter) (by rw [hsplit]; simp)
    exact .inl (List.forall_mem_cons.mpr
      ⟨by decide, List.forall_mem_singleton.mpr hmem⟩)
  split
  · exact .inl (escape_ascii (by decide +kernel) 2 r)
  split
  · exact .inl (escape_ascii (by decide +kernel) 4 runeError)
  split
  · exact .inl (escape_ascii (by decide +kernel) 4 r)
  · exact .inl (escape_ascii (by decide +kernel) 8 r)

/-- A character of a valid text is not taken for a stray byte. -/
theorem quoteRune_of_proper (wide : Nat → Bool) {r : Nat × GoString}
    (hproper : Proper r) : quoteRune wide r = appendEscapedRune wide r.1 := by
  unfold quoteRune
  split
  · next b hb =>
    have hrune : r.1 ≠ runeError := by
      rcases hproper with h | h
      · exact h
      · rw [hb] at h
        exact absurd rfl h
    rw [if_neg hrune]
  · rfl

section Quote

variable (wide : Nat → Bool) {s : GoString}

/-- What is written is valid. -/
theorem valid_quote (hs : s.valid = true) : (quote wide s).valid = true := by
  have hruns : valid (s.runes.flatMap (quoteRune wide)) = true := by
    refine valid_flatMap fun r hr => ?_
    have hproper := valid_iff.mp hs r hr
    rw [quoteRune_of_proper wide hproper]
    rcases appendEscapedRune_cases wide r.1 with hascii | ⟨-, heq⟩
    · exact valid_of_ascii fun b hb => (hascii b hb).2
    · rw [heq, (encode_rune hr hproper).1]
      exact valid_rune hr hs
  exact valid_append (s := [0x22]) (by decide)
    (valid_append hruns (by decide))

/-- Nothing below the space is written, no line break in particular. -/
theorem quote_ge (hs : s.valid = true) : ∀ b ∈ quote wide s, 0x20 ≤ b := by
  intro b hb
  simp only [quote, List.mem_cons, List.mem_append, List.mem_flatMap,
    List.not_mem_nil, or_false] at hb
  rcases hb with rfl | ⟨r, hr, hb⟩ | rfl
  · decide
  · have hproper := valid_iff.mp hs r hr
    rw [quoteRune_of_proper wide hproper] at hb
    rcases appendEscapedRune_cases wide r.1 with hascii | ⟨hge, heq⟩
    · exact (hascii b hb).1
    · rw [heq] at hb
      have hb := encodeRune_ge (encode_rune hr hproper).2.1 hge b hb
      exact UInt8.le_trans (by decide) hb
  · decide

end Quote

end Hdns.Verified.GoQuote

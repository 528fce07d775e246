import Hdns.Verified.Json
import Hdns.Verified.Utf8

/-!
# JSON strings

What the pieces of a string literal stand for, and how `encoding/json` writes a
text into a literal.  A literal is read in two steps.  Escapes are written out,
a surrogate pair as the character it stands for; then every byte that is no part
of a character becomes U+FFFD.  The bytes an escape is written out to begin with
the first byte of a character, so that none of them completes a character of the
bytes in front of it.

## Main results

* `unquote_flatMap_plain` — an escape may be written out in place.
* `literal_quoteBody` — a text that is written into a literal stands for itself.
-/

namespace Hdns.Verified.Json

open Hdns.Verified.GoString
open Hdns.Verified.Replacer

/-! ## Reading a literal -/

/-- `utf16.IsSurrogate`. -/
def isSurrogate (u : Nat) : Bool := 0xD800 ≤ u && u ≤ 0xDFFF

/-- The first and the second half of a surrogate pair. -/
def isHigh (u : Nat) : Bool := 0xD800 ≤ u && u ≤ 0xDBFF
def isLow (u : Nat) : Bool := 0xDC00 ≤ u && u ≤ 0xDFFF

/-- `utf16.DecodeRune` of a pair. -/
def pairRune (u u' : Nat) : Nat := (u - 0xD800) * 1024 + (u' - 0xDC00) + 0x10000

/-- The UTF-8 encoding of U+FFFD. -/
def runeErrorBytes : GoString := [0xEF, 0xBF, 0xBD]

/-- `utf8.AppendRune`. -/
def encodeRune (r : Nat) : GoString :=
  if r < 0x80 then [UInt8.ofNat r]
  else if r < 0x800 then
    [UInt8.ofNat (0xC0 + r / 64), UInt8.ofNat (0x80 + r % 64)]
  else if isSurrogate r || 0x10FFFF < r then runeErrorBytes
  else if r < 0x10000 then
    [UInt8.ofNat (0xE0 + r / 4096), UInt8.ofNat (0x80 + r / 64 % 64),
      UInt8.ofNat (0x80 + r % 64)]
  else
    [UInt8.ofNat (0xF0 + r / 262144), UInt8.ofNat (0x80 + r / 4096 % 64),
      UInt8.ofNat (0x80 + r / 64 % 64), UInt8.ofNat (0x80 + r % 64)]

/-- The pieces with the escapes written out. -/
def chars : List Piece → GoString
  | [] => []
  | .raw b :: ps => b :: chars ps
  | .unit u :: .unit u' :: ps =>
      if isHigh u ∧ isLow u' then encodeRune (pairRune u u') ++ chars ps
      else encodeRune u ++ chars (.unit u' :: ps)
  | .unit u :: ps => encodeRune u ++ chars ps

/-- Every byte that is no part of a character becomes U+FFFD. -/
def coerce (s : GoString) : GoString :=
  s.runes.flatMap fun r =>
    if r.1 = runeError ∧ r.2.length = 1 then runeErrorBytes else r.2

/-- `unquote`. -/
def unquote (ps : List Piece) : GoString := coerce (chars ps)

/-- `json.Unmarshal`, but for what a Go type makes of the value. -/
def decode (s : GoString) : Option (Value GoString) :=
  (template s).map (Value.map unquote)

/-- A piece with its escape written out, unless it is half a pair. -/
def plain : Piece → List Piece
  | .raw b => [.raw b]
  | .unit u => if isSurrogate u then [.unit u] else (encodeRune u).map .raw

theorem chars_raw_append (s : GoString) (ps : List Piece) :
    chars (s.map .raw ++ ps) = s ++ chars ps := by
  induction s with
  | nil => rfl
  | cons b s ih =>
      show b :: chars (s.map .raw ++ ps) = b :: (s ++ chars ps)
      rw [ih]

/-- An escape in front of what is no second half. -/
theorem chars_unit {u : Nat} {ps : List Piece}
    (h : ∀ u' rest, ps = .unit u' :: rest → ¬(isHigh u ∧ isLow u')) :
    chars (.unit u :: ps) = encodeRune u ++ chars ps := by
  cases ps with
  | nil => rfl
  | cons p ps =>
      cases p with
      | raw b => rfl
      | unit u' => rw [chars, if_neg (h u' ps rfl)]

theorem chars_pair {u u' : Nat} (h : isHigh u ∧ isLow u') (ps : List Piece) :
    chars (.unit u :: .unit u' :: ps) =
      encodeRune (pairRune u u') ++ chars ps := by
  rw [chars, if_pos h]

theorem isSurrogate_of_isHigh {u : Nat} (h : isHigh u = Bool.true) :
    isSurrogate u = Bool.true := by
  simp only [isHigh, isSurrogate, Bool.and_eq_true, decide_eq_true_eq] at *
  omega

theorem isSurrogate_of_isLow {u : Nat} (h : isLow u = Bool.true) :
    isSurrogate u = Bool.true := by
  simp only [isLow, isSurrogate, Bool.and_eq_true, decide_eq_true_eq] at *
  omega

theorem encodeRune_ne_nil (r : Nat) : encodeRune r ≠ [] := by
  unfold encodeRune runeErrorBytes
  split_ifs <;> simp

/-- What the pieces begin with when the escapes are written out: half a pair
only where they began with one. -/
theorem flatMap_plain_unit {ps : List Piece} {u : Nat} {rest : List Piece}
    (h : ps.flatMap plain = .unit u :: rest) :
    ∃ rest', ps = .unit u :: rest' ∧ isSurrogate u = Bool.true := by
  cases ps with
  | nil => cases h
  | cons p ps =>
      rw [List.flatMap_cons] at h
      cases p with
      | raw b => cases h
      | unit v =>
          by_cases hv : isSurrogate v = Bool.true
          · simp only [plain, if_pos hv, List.singleton_append,
              List.cons.injEq, Piece.unit.injEq] at h
            obtain ⟨rfl, -⟩ := h
            exact ⟨ps, rfl, hv⟩
          · simp only [plain, if_neg hv] at h
            cases hbytes : encodeRune v with
            | nil => exact absurd hbytes (encodeRune_ne_nil v)
            | cons b bs =>
                rw [hbytes] at h
                cases h

/-- **An escape may be written out in place**. -/
theorem chars_flatMap_plain (ps : List Piece) :
    chars (ps.flatMap plain) = chars ps := by
  induction hn : ps.length using Nat.strong_induction_on generalizing ps with
  | _ n ih =>
      cases ps with
      | nil => rfl
      | cons p ps =>
          have hps : chars (ps.flatMap plain) = chars ps :=
            ih ps.length (by rw [← hn]; exact Nat.lt_succ_self _) ps rfl
          rw [List.flatMap_cons]
          cases p with
          | raw b =>
              show b :: chars (ps.flatMap plain) = b :: chars ps
              rw [hps]
          | unit u =>
              by_cases hu : isSurrogate u = Bool.true
              · rw [plain, if_pos hu, List.singleton_append]
                by_cases hpair : ∃ u' rest, ps = .unit u' :: rest ∧
                    isHigh u ∧ isLow u'
                · obtain ⟨u', rest, rfl, hhalves⟩ := hpair
                  have hlow := isSurrogate_of_isLow hhalves.2
                  have hrest : chars (rest.flatMap plain) = chars rest := by
                    refine ih rest.length ?_ rest rfl
                    simp only [List.length_cons] at hn
                    omega
                  rw [List.flatMap_cons, plain, if_pos hlow,
                    List.singleton_append, chars_pair hhalves,
                    chars_pair hhalves, hrest]
                · have hsingle : ∀ u' rest, ps = .unit u' :: rest →
                      ¬(isHigh u ∧ isLow u') :=
                    fun u' rest heq hhalves =>
                      hpair ⟨u', rest, heq, hhalves⟩
                  have hsingle' : ∀ u' rest,
                      ps.flatMap plain = .unit u' :: rest →
                        ¬(isHigh u ∧ isLow u') := by
                    intro u' rest heq
                    obtain ⟨rest', heq', -⟩ := flatMap_plain_unit heq
                    exact hsingle u' rest' heq'
                  rw [chars_unit hsingle', chars_unit hsingle, hps]
              · have hsingle : ∀ u' rest, ps = .unit u' :: rest →
                    ¬(isHigh u ∧ isLow u') :=
                  fun u' rest _ hhalves => hu (isSurrogate_of_isHigh hhalves.1)
                rw [plain, if_neg hu, chars_raw_append, chars_unit hsingle, hps]

theorem unquote_flatMap_plain (ps : List Piece) :
    unquote (ps.flatMap plain) = unquote ps := by
  rw [unquote, chars_flatMap_plain, unquote]

/-! ## Writing a text into a literal -/

/-- A hexadecimal digit. -/
def hexChar (n : Nat) : UInt8 :=
  if n < 10 then UInt8.ofNat (0x30 + n) else UInt8.ofNat (0x61 + n - 10)

/-- An ASCII byte as `json.Marshal` writes it, which escapes what HTML treats
specially. -/
def quoteByte (b : UInt8) : GoString :=
  if b = 0x22 ∨ b = 0x5C then [0x5C, b]
  else if b = 0x08 then "\\b"
  else if b = 0x0C then "\\f"
  else if b = 0x0A then "\\n"
  else if b = 0x0D then "\\r"
  else if b = 0x09 then "\\t"
  else if b < 0x20 ∨ b ∈ lit "<>&" then
    lit "\\u00" ++ [hexChar (b.toNat / 16), hexChar (b.toNat % 16)]
  else [b]

/-- A rune as `json.Marshal` writes it. -/
def quoteRune (r : Nat × GoString) : GoString :=
  match r.2 with
  | [b] => if b < 0x80 then quoteByte b else "\\ufffd"
  | bytes =>
      if r.1 = 0x2028 ∨ r.1 = 0x2029 then
        lit "\\u202" ++ [hexChar (r.1 % 16)]
      else bytes

/-- What `json.Marshal` writes between the quotes. -/
def quoteBody (s : GoString) : GoString := s.runes.flatMap quoteRune

/-- `json.Marshal` of a string. -/
def quote (s : GoString) : GoString := 0x22 :: (quoteBody s ++ [0x22])

/-- The pieces of a text that stands inside a literal. -/
def piecesOf (a : GoString) : List Piece :=
  match run .inString a with
  | some (_, es) => es.filterMap fun e =>
      match e with
      | .piece p => some p
      | _ => none
  | none => []

theorem Literal.piecesOf_eq {a : GoString} {ps : List Piece}
    (h : Literal a ps) : piecesOf a = ps := by
  rw [piecesOf, h]
  show (ps.map Event.piece).filterMap _ = ps
  rw [List.filterMap_map]
  exact List.filterMap_some

/-- The text stands inside a literal, for what it reads with its escapes written
out. -/
def Reads (a s : GoString) : Prop :=
  Literal a (piecesOf a) ∧ (piecesOf a).flatMap plain = s.map .raw

instance (a s : GoString) : Decidable (Reads a s) :=
  inferInstanceAs (Decidable (_ = _ ∧ _ = _))

theorem Reads.of_literal {a s : GoString} {ps : List Piece}
    (h : Literal a ps) (hps : ps.flatMap plain = s.map .raw) : Reads a s := by
  rw [Reads, h.piecesOf_eq]
  exact ⟨h, hps⟩

theorem Reads.append {a a' s s' : GoString} (h : Reads a s)
    (h' : Reads a' s') : Reads (a ++ a') (s ++ s') := by
  refine .of_literal (h.1.append h'.1) ?_
  rw [List.flatMap_append, h.2, h'.2, List.map_append]

theorem reads_unescaped {a : GoString} (h : ∀ b ∈ a, Unescaped b) :
    Reads a a := by
  refine .of_literal (literal_raw h) ?_
  rw [List.flatMap_map]
  exact List.map_eq_flatMap.symm

/-- A byte of a longer sequence stands for itself. -/
theorem unescaped_of_ge {d : UInt8} (h : 0x80 ≤ d.toNat) : Unescaped d := by
  refine ⟨fun hlt => ?_, fun heq => ?_, fun heq => ?_⟩
  · have hlt := UInt8.lt_iff_toNat_lt.mp hlt
    have hbound : (0x20 : UInt8).toNat = 0x20 := rfl
    omega
  · rw [heq] at h
    exact absurd h (by decide)
  · rw [heq] at h
    exact absurd h (by decide)

theorem reads_quoteByte {b : UInt8} (hb : b < 0x80) :
    Reads (quoteByte b) [b] := by
  have hall : ∀ n < 128, Reads (quoteByte (UInt8.ofNat n)) [UInt8.ofNat n] := by
    decide +kernel
  have hlt : b.toNat < 128 := UInt8.lt_iff_toNat_lt.mp hb
  have hread := hall b.toNat hlt
  rw [UInt8.ofNat_toNat] at hread
  exact hread

/-- A rune that is no error is read as its bytes. -/
theorem reads_quoteRune {s : GoString} {r : Nat × GoString}
    (hr : r ∈ s.runes) (hproper : Proper r) : Reads (quoteRune r) r.2 := by
  obtain ⟨-, b, u, rfl⟩ := mem_runes _ s (Nat.le_refl _) r hr
  cases hlead : lead b with
  | none =>
      have hwidth : runeWidth (b :: u) = 1 := by
        simp [runeWidth, decodeRune, hlead]
      rw [hwidth] at hproper ⊢
      have hb : b < 0x80 := by
        by_contra hb
        simp [Proper, decodeRune, hlead, hb] at hproper
      show Reads (if b < 0x80 then quoteByte b else "\\ufffd") [b]
      rw [if_pos hb]
      exact reads_quoteByte hb
  | some l =>
      cases htail : decodeTail b l u with
      | none =>
          have hdecode : decodeRune (b :: u) = (runeError, 1) := by
            simp [decodeRune, hlead, htail]
          simp [Proper, runeWidth, hdecode] at hproper
      | some c =>
          have hdecode : decodeRune (b :: u) = (c, l.size) := by
            simp [decodeRune, hlead, htail]
          obtain ⟨hbytes, hlength, hseparator⟩ :=
            bytes_of_tail (lead_spec hlead) htail
          rw [runeWidth, hdecode]
          generalize (b :: u).take l.size = bytes at hbytes hlength hseparator
          show Reads (quoteRune (c, bytes)) bytes
          rcases bytes with _ | ⟨c₁, _ | ⟨c₂, cs⟩⟩
          · simp at hlength
          · simp at hlength
          · show Reads (if c = 0x2028 ∨ c = 0x2029 then
              lit "\\u202" ++ [hexChar (c % 16)] else c₁ :: c₂ :: cs) _
            by_cases hc : c = 0x2028 ∨ c = 0x2029
            · rw [if_pos hc]
              cases hc with
              | inl h =>
                  rw [hseparator 0 (by omega) h, h]
                  decide
              | inr h =>
                  rw [hseparator 1 (by omega) h, h]
                  decide
            · rw [if_neg hc]
              exact reads_unescaped fun d hd => unescaped_of_ge (hbytes d hd)

/-- **A valid text that is written into a literal stands for itself**. -/
theorem reads_quoteBody {s : GoString} (h : s.valid = Bool.true) :
    Reads (quoteBody s) s := by
  have hproper : ∀ r ∈ s.runes, Proper r := by
    intro r hr
    rw [GoString.valid, List.all_eq_true] at h
    simpa [Proper] using h r hr
  have hruns : ∀ rs : List (Nat × GoString), (∀ r ∈ rs, r ∈ s.runes) →
      Reads (rs.flatMap quoteRune) (rs.flatMap (·.2)) := by
    intro rs
    induction rs with
    | nil => exact fun _ => by decide
    | cons r rs ih =>
        intro hmem
        have hr := hmem r List.mem_cons_self
        rw [List.flatMap_cons, List.flatMap_cons]
        exact (reads_quoteRune hr (hproper r hr)).append
          (ih fun r' hr' => hmem r' (List.mem_cons_of_mem r hr'))
  have hread := hruns s.runes fun r hr => hr
  rw [flatMap_runes _ s (Nat.le_refl _)] at hread
  exact hread

/-! ## Replacing keys in a literal -/

/-- What is put in the place of the keys matters only with its escapes written
out. -/
theorem unquote_replace_congr {keys : List GoString}
    {pieces pieces' : GoString → List Piece} (hsep : Separate keys)
    (hpieces : ∀ k ∈ keys,
      (pieces k).flatMap plain = (pieces' k).flatMap plain)
    (ps : List Piece) :
    unquote (replace (pieceKeys keys pieces) ps) =
      unquote (replace (pieceKeys keys pieces') ps) := by
  have hkeys : Separate (keysOf (pieceKeys keys pieces)) :=
    separate_pieceKeys hsep
  have hplain : (replace (pieceKeys keys pieces) ps).flatMap plain =
      (replace (pieceKeys keys pieces') ps).flatMap plain := by
    induction ps using hkeys.induct with
    | nil => rfl
    | key ks hks ps ih =>
        obtain ⟨k, hk, rfl⟩ := mem_keysOf_pieceKeys.mp hks
        rw [replace_key hkeys hks,
          replace_key (separate_pieceKeys hsep)
            (mem_keysOf_pieceKeys.mpr ⟨k, hk, rfl⟩),
          value_pieceKeys hk, value_pieceKeys hk, List.flatMap_append,
          List.flatMap_append, hpieces k hk, ih]
    | element p ps hnone ih =>
        have hnone' : ∀ ks ∈ keysOf (pieceKeys keys pieces'),
            ¬ks <+: p :: ps := by
          intro ks hks
          exact hnone ks (mem_keysOf_pieceKeys.mpr
            (mem_keysOf_pieceKeys.mp hks))
        rw [replace_element hnone, replace_element hnone', List.flatMap_cons,
          List.flatMap_cons, ih]
  rw [← unquote_flatMap_plain, hplain, unquote_flatMap_plain]

/-- **A template whose keys stand inside its literals**: where the texts that
are put in read as others, the result decodes to the template with those. -/
theorem decode_replace {pairs : List (GoString × GoString)}
    {texts : GoString → GoString} (hsep : Separate (keysOf pairs))
    (hslot : ∀ k ∈ keysOf pairs, Slot k) {s : GoString}
    (hreads : ∀ k ∈ keysOf pairs, k <:+: s → Reads (value pairs k) (texts k))
    {v : Value (List Piece)} (h : template s = some v) :
    decode (replace pairs s) = some (v.map fun ps => unquote
      (replace (pieceKeys (keysOf pairs) fun k => (texts k).map .raw) ps)) := by
  -- a key that does not occur may as well be given the pieces of its text
  let pieces : GoString → List Piece := fun k =>
    if k <:+: s then piecesOf (value pairs k) else (texts k).map .raw
  have hpieces : ∀ k ∈ keysOf pairs, (pieces k).flatMap plain =
      ((texts k).map Piece.raw).flatMap plain := by
    intro k hk
    have hraw : ((texts k).map Piece.raw).flatMap plain =
        (texts k).map .raw := by
      rw [List.flatMap_map]
      exact List.map_eq_flatMap.symm
    rw [hraw]
    by_cases hmem : k <:+: s
    · simp only [pieces, if_pos hmem]
      exact (hreads k hk hmem).2
    · simp only [pieces, if_neg hmem]
      exact hraw
  have hliteral : ∀ k ∈ keysOf pairs, k <:+: s →
      Literal (value pairs k) (pieces k) := by
    intro k hk hmem
    simp only [pieces, if_pos hmem]
    exact (hreads k hk hmem).1
  rw [decode, template_replace hsep hslot hliteral h, Option.map_some,
    Value.map_map]
  congr 2
  funext ps
  exact unquote_replace_congr hsep hpieces ps

end Hdns.Verified.Json

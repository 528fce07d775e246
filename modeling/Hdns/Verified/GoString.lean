import Mathlib.Data.List.Basic
import Mathlib.Data.List.Infix

/-!
# Go strings

A Go `string` is an arbitrary byte sequence: nothing makes it valid UTF-8.
This module gives that type, the operations of Go's `strings` and
`unicode/utf8` packages that byte sequences need, and the one operation of the
language that is easily misread: `for i := range s` does **not** visit every
byte.  It visits the first byte of every rune, where a byte that begins no
complete valid sequence counts as a rune of width one.

## Main results

* `trimSuffix_append`, `trimPrefix_append` — trimming undoes appending.
* `hasSuffix_iff`, `hasPrefix_iff` — the tests as decompositions.
* `agreeAt_iff` — comparing two strings at the positions `range` visits is a
  comparison by structural recursion.
* `eq_of_agree` — where no lead byte of the second string has room for its
  sequence, agreeing at the visited positions is equality.
* `exists_agree_ne` — where one has room, some different string agrees.
-/

namespace Hdns.Verified

/-- A Go string: any sequence of bytes. -/
abbrev GoString := List UInt8

instance : LawfulBEq GoString := inferInstance

namespace GoString

/-- The bytes of a string literal of the source. -/
def lit (s : String) : GoString := s.toUTF8.data.toList

instance : Coe String GoString := ⟨lit⟩

/-- What holds of the 256 numbers of a byte holds of every byte. -/
theorem forall_byte {P : UInt8 → Prop} (h : ∀ n < 256, P (UInt8.ofNat n))
    (b : UInt8) : P b := by
  have hb := h b.toNat b.toNat_lt
  rwa [UInt8.ofNat_toNat] at hb

/-! ## Package `strings`: prefixes and suffixes -/

/-- `strings.HasPrefix`. -/
def hasPrefix (s pre : GoString) : Bool := pre.isPrefixOf s

/-- `strings.HasSuffix`. -/
def hasSuffix (s suf : GoString) : Bool := suf.isSuffixOf s

/-- `strings.TrimPrefix`: at most one occurrence is removed. -/
def trimPrefix (s pre : GoString) : GoString :=
  if s.hasPrefix pre then s.drop pre.length else s

/-- `strings.TrimSuffix`: at most one occurrence is removed. -/
def trimSuffix (s suf : GoString) : GoString :=
  if s.hasSuffix suf then s.take (s.length - suf.length) else s

/-- `strings.Contains`. -/
def contains (s sub : GoString) : Bool := decide (sub <:+: s)

/-- `strings.Join`. -/
def join (parts : List GoString) (sep : GoString) : GoString :=
  (parts.intersperse sep).flatten

theorem join_cons_next (p q : GoString) (parts : List GoString)
    (sep : GoString) :
    join (p :: q :: parts) sep = p ++ (sep ++ join (q :: parts) sep) := by
  simp [join]

/-- What is joined is made of the parts and the separator. -/
theorem mem_join {parts : List GoString} {sep : GoString} {c : UInt8}
    (h : c ∈ join parts sep) : c ∈ sep ∨ ∃ p ∈ parts, c ∈ p := by
  induction parts with
  | nil => cases h
  | cons p parts ih =>
      cases parts with
      | nil =>
          have hp : join [p] sep = p := by simp [join]
          rw [hp] at h
          exact .inr ⟨p, List.mem_cons_self, h⟩
      | cons q parts =>
          rw [join_cons_next, List.mem_append, List.mem_append] at h
          rcases h with h | h | h
          · exact .inr ⟨p, List.mem_cons_self, h⟩
          · exact .inl h
          · rcases ih h with h | ⟨p', hp', h⟩
            · exact .inl h
            · exact .inr ⟨p', List.mem_cons_of_mem p hp', h⟩

/-- The rest of `s` with every occurrence of `old` replaced; `skip` bytes of
the last occurrence are still to be passed over. -/
def replaceFrom (old new : GoString) : Nat → GoString → GoString
  | _, [] => []
  | skip + 1, _ :: bs => replaceFrom old new skip bs
  | 0, b :: bs =>
      if old.isPrefixOf (b :: bs) then
        new ++ replaceFrom old new (old.length - 1) bs
      else b :: replaceFrom old new 0 bs

/-- `strings.ReplaceAll` for a text `old` that is not empty. -/
def replaceAll (s old new : GoString) : GoString := replaceFrom old new 0 s

/-- The rest of `s` with the texts of `pairs` replaced: at each position the
first pair in argument order that matches. -/
def replacerFrom (pairs : List (GoString × GoString)) :
    Nat → GoString → GoString
  | _, [] => []
  | skip + 1, _ :: bs => replacerFrom pairs skip bs
  | 0, b :: bs =>
      match pairs.find? fun p => p.1.isPrefixOf (b :: bs) with
      | some (old, new) => new ++ replacerFrom pairs (old.length - 1) bs
      | none => b :: replacerFrom pairs 0 bs

/-- `strings.NewReplacer(pairs...).Replace(s)` for texts that are not empty. -/
def replacer (pairs : List (GoString × GoString)) (s : GoString) : GoString :=
  replacerFrom pairs 0 s

theorem hasPrefix_iff {s pre : GoString} :
    s.hasPrefix pre = true ↔ ∃ t, s = pre ++ t := by
  rw [hasPrefix, List.isPrefixOf_iff_prefix]
  exact ⟨fun ⟨t, h⟩ => ⟨t, h.symm⟩, fun ⟨t, h⟩ => ⟨t, h.symm⟩⟩

theorem hasSuffix_iff {s suf : GoString} :
    s.hasSuffix suf = true ↔ ∃ t, s = t ++ suf := by
  rw [hasSuffix, List.isSuffixOf_iff_suffix]
  exact ⟨fun ⟨t, h⟩ => ⟨t, h.symm⟩, fun ⟨t, h⟩ => ⟨t, h.symm⟩⟩

@[simp] theorem trimPrefix_append (pre s : GoString) :
    GoString.trimPrefix (pre ++ s) pre = s := by
  have h : GoString.hasPrefix (pre ++ s) pre = true := hasPrefix_iff.mpr ⟨s, rfl⟩
  simp [trimPrefix, h]

@[simp] theorem trimSuffix_append (s suf : GoString) :
    GoString.trimSuffix (s ++ suf) suf = s := by
  have h : GoString.hasSuffix (s ++ suf) suf = true := hasSuffix_iff.mpr ⟨s, rfl⟩
  simp [trimSuffix, h]

theorem trimPrefix_of_not {s pre : GoString} (h : s.hasPrefix pre = false) :
    s.trimPrefix pre = s := by
  simp [trimPrefix, h]

/-! ## Package `unicode/utf8`: decoding one rune -/

/-- What the first byte of a multi-byte sequence announces: the length of the
sequence and the range its second byte must lie in. -/
structure Lead where
  size : Nat
  lo : UInt8
  hi : UInt8
  deriving DecidableEq, Repr

/-- The lead-byte table of `unicode/utf8`; `none` for ASCII bytes and for the
bytes that begin no sequence. -/
def lead (b : UInt8) : Option Lead :=
  if b < 0xC2 then none
  else if b ≤ 0xDF then some ⟨2, 0x80, 0xBF⟩
  else if b = 0xE0 then some ⟨3, 0xA0, 0xBF⟩
  else if b = 0xED then some ⟨3, 0x80, 0x9F⟩
  else if b ≤ 0xEF then some ⟨3, 0x80, 0xBF⟩
  else if b = 0xF0 then some ⟨4, 0x90, 0xBF⟩
  else if b ≤ 0xF3 then some ⟨4, 0x80, 0xBF⟩
  else if b = 0xF4 then some ⟨4, 0x80, 0x8F⟩
  else none

/-- `utf8.RuneError`, also what an invalid byte decodes to. -/
def runeError : Nat := 0xFFFD

/-- A continuation byte in the default range. -/
def isCont (b : UInt8) : Bool := 0x80 ≤ b && b ≤ 0xBF

/-- Six payload bits of a continuation byte. -/
def payload (b : UInt8) : Nat := b.toNat % 64

/-- The rune a lead byte and the bytes after it encode; `none` for a truncated
or malformed sequence. -/
def decodeTail (b : UInt8) (l : Lead) (rest : GoString) : Option Nat :=
  match l.size, rest with
  | 2, c₁ :: _ =>
      if l.lo ≤ c₁ ∧ c₁ ≤ l.hi then some (b.toNat % 32 * 64 + payload c₁)
      else none
  | 3, c₁ :: c₂ :: _ =>
      if (l.lo ≤ c₁ ∧ c₁ ≤ l.hi) ∧ isCont c₂ then
        some ((b.toNat % 16 * 64 + payload c₁) * 64 + payload c₂)
      else none
  | 4, c₁ :: c₂ :: c₃ :: _ =>
      if (l.lo ≤ c₁ ∧ c₁ ≤ l.hi) ∧ isCont c₂ ∧ isCont c₃ then
        some (((b.toNat % 8 * 64 + payload c₁) * 64 + payload c₂) * 64
          + payload c₃)
      else none
  | _, _ => none

/-- `utf8.DecodeRuneInString`: the first rune and its width.  Every failure
(stray continuation byte, truncated or malformed sequence) is the error rune
of width one. -/
def decodeRune : GoString → Nat × Nat
  | [] => (runeError, 0)
  | b :: rest =>
      match lead b with
      | none => (if b < 0x80 then b.toNat else runeError, 1)
      | some l =>
          match decodeTail b l rest with
          | some r => (r, l.size)
          | none => (runeError, 1)

/-- The width the `range` loop advances by. -/
def runeWidth (s : GoString) : Nat := (decodeRune s).2

/-! ## `for i := range s` -/

/-- The positions a `range` loop visits in the rest of a string, `skip` bytes
of which still belong to the rune before, the rest starting at index `i`. -/
def rangeFrom : Nat → Nat → GoString → List Nat
  | _, _, [] => []
  | 0, i, b :: bs => i :: rangeFrom (runeWidth (b :: bs) - 1) (i + 1) bs
  | skip + 1, i, _ :: bs => rangeFrom skip (i + 1) bs

/-- The positions `for i := range s` visits. -/
def range (s : GoString) : List Nat := rangeFrom 0 0 s

/-- `utf8.RuneCountInString`: what a `VARCHAR(n)` column counts. -/
def runeCount (s : GoString) : Nat := s.range.length

/-- The runes of a string, each with the bytes it was decoded from. -/
def runes (s : GoString) : List (Nat × GoString) :=
  go s.length s
where
  go : Nat → GoString → List (Nat × GoString)
    | 0, _ => []
    | _ + 1, [] => []
    | n + 1, s =>
        ((decodeRune s).1, s.take (runeWidth s)) :: go n (s.drop (runeWidth s))

/-- `unicode.IsSpace`. -/
def isSpace (r : Nat) : Bool :=
  r ∈ [0x09, 0x0A, 0x0B, 0x0C, 0x0D, 0x20, 0x85, 0xA0, 0x1680, 0x2028, 0x2029,
    0x202F, 0x205F, 0x3000] || (0x2000 ≤ r && r ≤ 0x200A)

/-- `strings.TrimSpace`. -/
def trimSpace (s : GoString) : GoString :=
  let isBlank := fun r : Nat × GoString => isSpace r.1
  let kept := s.runes.dropWhile isBlank
  (kept.reverse.dropWhile isBlank).reverse.flatMap (·.2)

example : trimSpace (lit " a b\n") = lit "a b" := by decide

/-- `utf8.ValidString`: no byte decodes to the error rune by itself. -/
def valid (s : GoString) : Bool :=
  s.runes.all fun r => r.1 ≠ runeError || r.2.length ≠ 1

private theorem decodeRune_ascii {b : UInt8} (h : b < 0x80) (bs : GoString) :
    decodeRune (b :: bs) = (b.toNat, 1) := by
  have hlead : lead b = none :=
    if_pos (UInt8.lt_trans h (by decide))
  simp [decodeRune, hlead, h]

private theorem runes_go_ascii (s : GoString) :
    ∀ n, s.length ≤ n → (∀ b ∈ s, b < 0x80) →
      runes.go n s = s.map fun b => (b.toNat, [b]) := by
  induction s with
  | nil =>
      intro n _ _
      cases n <;> rfl
  | cons b bs ih =>
      intro n hn hs
      cases n with
      | zero => cases hn
      | succ n =>
          have hb := decodeRune_ascii (hs b List.mem_cons_self) bs
          have hrest := ih n (Nat.le_of_succ_le_succ hn) fun c hc =>
            hs c (List.mem_cons_of_mem b hc)
          simp [runes.go, runeWidth, hb, hrest]

/-- The runes of an ASCII text are its bytes. -/
theorem runes_ascii {s : GoString} (h : ∀ b ∈ s, b < 0x80) :
    s.runes = s.map fun b => (b.toNat, [b]) :=
  runes_go_ascii s s.length (Nat.le_refl _) h

theorem valid_of_ascii {s : GoString} (h : ∀ b ∈ s, b < 0x80) :
    s.valid = true := by
  rw [valid, runes_ascii h, List.all_eq_true]
  intro r hr
  obtain ⟨b, hb, rfl⟩ := List.mem_map.mp hr
  have hlt : b.toNat < 0x80 := UInt8.lt_iff_toNat_lt.mp (h b hb)
  have hne : b.toNat ≠ runeError := by
    unfold runeError
    omega
  simp [hne]

/-- A text without spaces is trimmed to itself. -/
theorem trimSpace_of_ascii {s : GoString}
    (h : ∀ b ∈ s, b < 0x80 ∧ isSpace b.toNat = false) : s.trimSpace = s := by
  have hkept : ∀ rs : List (Nat × GoString),
      (∀ r ∈ rs, isSpace r.1 = false) →
        rs.dropWhile (fun r => isSpace r.1) = rs := by
    intro rs hrs
    cases rs with
    | nil => rfl
    | cons r rs => rw [List.dropWhile_cons, hrs r List.mem_cons_self]; rfl
  have hruns : ∀ r ∈ s.runes, isSpace r.1 = false := by
    rw [runes_ascii fun b hb => (h b hb).1]
    intro r hr
    obtain ⟨b, hb, rfl⟩ := List.mem_map.mp hr
    exact (h b hb).2
  rw [trimSpace, hkept _ hruns, hkept _ fun r hr =>
    hruns r (List.mem_reverse.mp hr), List.reverse_reverse,
    runes_ascii fun b hb => (h b hb).1, List.flatMap_map]
  simp [List.flatMap_singleton']

/-! ## Comparing two strings at the visited positions -/

/-- Agreement of two strings at the positions a `range` loop over the first
one visits, by recursion on the strings. -/
def Agree : Nat → GoString → GoString → Prop
  | 0, a :: as, b :: bs => a = b ∧ Agree (runeWidth (a :: as) - 1) as bs
  | skip + 1, _ :: as, _ :: bs => Agree skip as bs
  | _, _, _ => True

/-- Index-wise agreement at the positions of a `range` loop is `Agree`. -/
theorem agreeAt_iff (as : GoString) :
    ∀ (bs pre qre : GoString) (skip : Nat), as.length = bs.length →
      pre.length = qre.length →
      ((∀ i ∈ rangeFrom skip pre.length as,
          (pre ++ as).getD i 0 = (qre ++ bs).getD i 0) ↔ Agree skip as bs) := by
  induction as with
  | nil => intro bs pre qre skip _ _; cases skip <;> simp [rangeFrom, Agree]
  | cons a as ih =>
      intro bs pre qre skip hlen hpre
      cases bs with
      | nil => simp at hlen
      | cons b bs =>
          have hlen' : as.length = bs.length := by simpa using hlen
          have hnext := fun k => ih bs (pre ++ [a]) (qre ++ [b]) k hlen'
            (by simp [hpre])
          simp only [List.append_assoc, List.singleton_append,
            List.length_append, List.length_singleton] at hnext
          cases skip with
          | zero =>
              simp only [rangeFrom, List.mem_cons, forall_eq_or_imp, Agree]
              rw [hnext]
              simp [List.getD, hpre]
          | succ skip => exact hnext skip

/-! ## Which strings the visited positions determine -/

/-- Some byte of the string announces a multi-byte sequence for which the
string has enough bytes left. -/
def hasRoom : GoString → Bool
  | [] => false
  | b :: bs =>
      (match lead b with
        | some l => decide (l.size ≤ bs.length + 1)
        | none => false) || hasRoom bs

/-- The positions `hasRoom` looks for. -/
theorem hasRoom_iff (s : GoString) :
    hasRoom s = true ↔ ∃ pre b post l,
      s = pre ++ b :: post ∧ lead b = some l ∧ l.size ≤ post.length + 1 := by
  induction s with
  | nil => simp [hasRoom]
  | cons b bs ih =>
      simp only [hasRoom, Bool.or_eq_true, ih]
      constructor
      · rintro (h | ⟨pre, c, post, l, rfl, hl, hle⟩)
        · cases hl : lead b with
          | none => simp [hl] at h
          | some l => exact ⟨[], b, bs, l, rfl, hl, by simpa [hl] using h⟩
        · exact ⟨b :: pre, c, post, l, rfl, hl, hle⟩
      · rintro ⟨pre, c, post, l, hs, hl, hle⟩
        cases pre with
        | nil =>
            simp only [List.nil_append, List.cons.injEq] at hs
            obtain ⟨rfl, rfl⟩ := hs
            exact .inl (by simp [hl, hle])
        | cons p pre =>
            simp only [List.cons_append, List.cons.injEq] at hs
            exact .inr ⟨pre, c, post, l, hs.2, hl, hle⟩

private theorem decodeTail_short {b : UInt8} {l : Lead} {rest : GoString}
    (h : rest.length + 1 < l.size) : decodeTail b l rest = none := by
  unfold decodeTail
  split
  all_goals first
    | rfl
    | (next hsize => simp only [hsize, List.length_cons] at h; omega)

/-- A rune whose first byte has no room for its sequence has width one. -/
theorem runeWidth_eq_one {b : UInt8} {bs : GoString}
    (h : ∀ l, lead b = some l → bs.length + 1 < l.size) :
    runeWidth (b :: bs) = 1 := by
  cases hl : lead b with
  | none => simp [runeWidth, decodeRune, hl]
  | some l => simp [runeWidth, decodeRune, hl, decodeTail_short (h l hl)]

theorem agree_self (s : GoString) : ∀ skip, Agree skip s s := by
  induction s with
  | nil => intro skip; cases skip <;> trivial
  | cons b bs ih =>
      intro skip
      cases skip with
      | zero => exact ⟨rfl, ih _⟩
      | succ skip => exact ih skip

/-- Without room for a multi-byte sequence in the second string, every byte of
the first one is a position the loop visits. -/
theorem eq_of_agree (as : GoString) :
    ∀ bs : GoString, as.length = bs.length → hasRoom bs = false →
      Agree 0 as bs → as = bs := by
  induction as with
  | nil => intro bs hlen _ _; exact (List.length_eq_zero_iff.mp hlen.symm).symm
  | cons a as ih =>
      intro bs hlen hroom hagree
      cases bs with
      | nil => simp at hlen
      | cons b bs =>
          obtain ⟨rfl, htail⟩ := hagree
          have hlen' : as.length = bs.length := by simpa using hlen
          obtain ⟨hhead, hrest⟩ := Bool.or_eq_false_iff.mp hroom
          have hwidth : runeWidth (a :: as) = 1 := by
            apply runeWidth_eq_one
            intro l hl
            simp only [hl, decide_eq_false_iff_not] at hhead
            omega
          rw [hwidth] at htail
          rw [ih bs hlen' hrest htail]

/-- A byte different from `c` in the default continuation range. -/
private def otherCont (c : UInt8) : UInt8 := if c = 0x80 then 0x81 else 0x80

private theorem otherCont_ne (c : UInt8) : otherCont c ≠ c := by
  unfold otherCont
  split
  · next h => subst h; decide
  · next h => exact fun hc => h hc.symm

private theorem otherCont_cases (c : UInt8) :
    otherCont c = 0x80 ∨ otherCont c = 0x81 := by
  unfold otherCont; split <;> simp

/-- The possible shapes of a table entry: the sequence has two to four bytes,
and in the two-byte case the default range applies. -/
private theorem lead_cases {b : UInt8} {l : Lead} (h : lead b = some l) :
    l = ⟨2, 0x80, 0xBF⟩ ∨ (l.size = 3 ∨ l.size = 4) ∧ l.lo ≤ l.hi := by
  unfold lead at h
  split_ifs at h <;> cases h <;> simp

/-- Where the first byte has room for its sequence, the bytes after it can be
exchanged for others that the loop skips. -/
private theorem exists_agree_ne_head {b : UInt8} {bs : GoString} {l : Lead}
    (hl : lead b = some l) (hroom : l.size ≤ bs.length + 1) :
    ∃ as, as.length = (b :: bs).length ∧ as ≠ b :: bs ∧ Agree 0 as (b :: bs) := by
  rcases lead_cases hl with rfl | ⟨hsize, hlohi⟩
  · match bs, hroom with
    | c :: rest, _ =>
      refine ⟨b :: otherCont c :: rest, rfl, ?_, rfl, ?_⟩
      · simp [otherCont_ne]
      · have hw : runeWidth (b :: otherCont c :: rest) = 2 := by
          rcases otherCont_cases c with h | h <;>
            simp [runeWidth, decodeRune, decodeTail, hl, h]
        simpa [hw, Agree] using agree_self rest 0
  · rcases hsize with h3 | h4
    · match bs, hroom with
      | c₁ :: c₂ :: rest, _ =>
        refine ⟨b :: l.lo :: otherCont c₂ :: rest, rfl, ?_, rfl, ?_⟩
        · simp [otherCont_ne]
        · have hw : runeWidth (b :: l.lo :: otherCont c₂ :: rest) = 3 := by
            rcases otherCont_cases c₂ with h | h <;>
              simp [runeWidth, decodeRune, decodeTail, hl, h3, h, hlohi, isCont]
          simpa [hw, Agree] using agree_self rest 0
      | [_], h => simp [h3] at h
      | [], h => simp [h3] at h
    · match bs, hroom with
      | c₁ :: c₂ :: c₃ :: rest, _ =>
        refine ⟨b :: l.lo :: 0x80 :: otherCont c₃ :: rest, rfl, ?_, rfl, ?_⟩
        · simp [otherCont_ne]
        · have hw : runeWidth (b :: l.lo :: 0x80 :: otherCont c₃ :: rest) = 4 := by
            rcases otherCont_cases c₃ with h | h <;>
              simp [runeWidth, decodeRune, decodeTail, hl, h4, h, hlohi, isCont]
          simpa [hw, Agree] using agree_self rest 0
      | [_, _], h => simp [h4] at h
      | [_], h => simp [h4] at h
      | [], h => simp [h4] at h

/-- Where some byte has room for its sequence, a different string of the same
length agrees at every position the loop visits. -/
theorem exists_agree_ne (bs : GoString) :
    hasRoom bs = true →
      ∃ as : GoString, as.length = bs.length ∧ as ≠ bs ∧ Agree 0 as bs := by
  induction bs with
  | nil => intro h; simp [hasRoom] at h
  | cons b bs ih =>
      intro hroom
      by_cases hhead : ∃ l, lead b = some l ∧ l.size ≤ bs.length + 1
      · obtain ⟨l, hl, hle⟩ := hhead
        exact exists_agree_ne_head hl hle
      · -- `b` stands for itself whatever follows it: exchange later bytes
        have hshort : ∀ l, lead b = some l → bs.length + 1 < l.size :=
          fun l hl => Nat.lt_of_not_le fun hle => hhead ⟨l, hl, hle⟩
        have hrest : hasRoom bs = true := by
          rcases Bool.or_eq_true_iff.mp hroom with h | h
          · cases hl : lead b with
            | none => simp [hl] at h
            | some l =>
                have hle := Nat.not_le.mpr (hshort l hl)
                exact absurd (by simpa [hl] using h) hle
          · exact h
        obtain ⟨as, hlen, hne, hagree⟩ := ih hrest
        refine ⟨b :: as, by simp [hlen], by simp [hne], rfl, ?_⟩
        have hw : runeWidth (b :: as) = 1 :=
          runeWidth_eq_one fun l hl => by rw [hlen]; exact hshort l hl
        simpa [hw] using hagree

end GoString

end Hdns.Verified

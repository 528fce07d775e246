import Hdns.Verified.GoQuote
import Mathlib.Data.List.Nodup

/-!
# Reading a part of YAML

The part is that of YAML 1.2 in which configuration files are written: block
sequences and block mappings with plain keys, and on one line a double-quoted
scalar, a plain word, or a flow sequence of plain words.  Whatever else a text
holds, the reader refuses it; what it accepts means in YAML what it returns.

A text is read in three steps: each line into entries with the columns they
start in, where `- ` is an entry of its own; the entries into a forest, by their
columns; the forest into a node.

The values are taken out of a node by key, as a decoder does that follows the
tags of a record.

## Main results

* `unescape_quote` — a text quoted by Go is read as the text.
* `field_present` — a field is read back from the fields that are present.
-/

namespace Hdns.Verified.Yaml

open Hdns.Verified.GoString
open Hdns.Verified.Json
open Hdns.Verified.GoQuote

/-! ## Double-quoted scalars -/

/-- Where a reader stands in a double-quoted scalar: behind `n` more digits the
escape for a number that begins with `value` is complete. -/
inductive Mode where
  | text
  | escape
  | digits (n value : Nat)

/-- `c-ns-esc-char`, but for the escapes by number. -/
def escapes : List (UInt8 × Nat) :=
  [(0x30, 0x00), (0x61, 0x07), (0x62, 0x08), (0x74, 0x09), (0x09, 0x09),
    (0x6E, 0x0A), (0x76, 0x0B), (0x66, 0x0C), (0x72, 0x0D), (0x65, 0x1B),
    (0x20, 0x20), (0x22, 0x22), (0x2F, 0x2F), (0x5C, 0x5C), (0x4E, 0x85),
    (0x5F, 0xA0), (0x4C, 0x2028), (0x50, 0x2029)]

/-- The escapes by number, with how many digits they have. -/
def numbered : List (UInt8 × Nat) := [(0x78, 2), (0x75, 4), (0x55, 8)]

/-- A hexadecimal digit. -/
def digit (b : UInt8) : Option Nat :=
  if 0x30 ≤ b ∧ b ≤ 0x39 then some (b.toNat - 0x30)
  else if 0x41 ≤ b ∧ b ≤ 0x46 then some (b.toNat - 0x41 + 10)
  else if 0x61 ≤ b ∧ b ≤ 0x66 then some (b.toNat - 0x61 + 10)
  else none

/-- The text of a double-quoted scalar on one line, from behind the quote that
opens it; the line ends with the quote that closes it. -/
def unescape : Mode → GoString → Option GoString
  | _, [] => none
  | .text, b :: s =>
      if b = 0x22 then if s = [] then some [] else none
      else if b = 0x5C then unescape .escape s
      else if b < 0x20 ∧ b ≠ 0x09 then none
      else (unescape .text s).map (b :: ·)
  | .escape, b :: s =>
      match escapes.lookup b, numbered.lookup b with
      | some r, _ => (unescape .text s).map (encodeRune r ++ ·)
      | none, some n => unescape (.digits (n - 1) 0) s
      | none, none => none
  | .digits n value, b :: s =>
      match digit b, n with
      | none, _ => none
      | some d, 0 =>
          if validRune (16 * value + d) then
            (unescape .text s).map (encodeRune (16 * value + d) ++ ·)
          else none
      | some d, n + 1 => unescape (.digits n (16 * value + d)) s

example : unescape .text (lit "a\\x41\\u00e9\\\"\"") = some (lit "aAé\"") := by
  decide +kernel

/-- A byte that stands for itself. -/
def Unescaped (b : UInt8) : Prop := b ≠ 0x22 ∧ b ≠ 0x5C ∧ 0x20 ≤ b

instance (b : UInt8) : Decidable (Unescaped b) :=
  inferInstanceAs (Decidable (_ ∧ _))

theorem unescaped_of_ge {b : UInt8} (h : 0x80 ≤ b) : Unescaped b := by
  revert b
  apply forall_byte
  decide +kernel

theorem unescape_append {a : GoString} (h : ∀ b ∈ a, Unescaped b) (s : GoString) :
    unescape .text (a ++ s) = (unescape .text s).map (a ++ ·) := by
  induction a with
  | nil => simp
  | cons b a ih =>
      obtain ⟨hquote, hslash, hge⟩ := h b List.mem_cons_self
      have hcontrol : ¬(b < 0x20 ∧ b ≠ 0x09) := fun hb =>
        UInt8.not_lt.mpr hge hb.1
      rw [List.cons_append, unescape, if_neg hquote, if_neg hslash,
        if_neg hcontrol, ih fun c hc => h c (List.mem_cons_of_mem b hc),
        Option.map_map]
      rfl

theorem digit_hexChar {n : Nat} (h : n < 16) : digit (hexChar n) = some n := by
  have hall : ∀ n < 16, digit (hexChar n) = some n := by decide +kernel
  exact hall n h

/-- The digits of a number are read as the number. -/
theorem unescape_hex (r : Nat) (s : GoString) : ∀ (k value : Nat),
    validRune (16 ^ (k + 1) * value + r % 16 ^ (k + 1)) = true →
      unescape (.digits k value) (hex (k + 1) r ++ s) =
        (unescape .text s).map
          (encodeRune (16 ^ (k + 1) * value + r % 16 ^ (k + 1)) ++ ·) := by
  intro k
  induction k with
  | zero =>
      intro value hvalid
      have hdigit := digit_hexChar (Nat.mod_lt r (show 0 < 16 by omega))
      simp only [Nat.zero_add, Nat.pow_one] at hvalid ⊢
      simp only [hex, Nat.pow_zero, Nat.div_one, List.cons_append,
        List.nil_append, unescape, hdigit, hvalid, if_true]
  | succ k ih =>
      intro value hvalid
      have hdigit := digit_hexChar
        (Nat.mod_lt (r / 16 ^ (k + 1)) (show 0 < 16 by omega))
      have hsplit : 16 ^ (k + 1) * (16 * value + r / 16 ^ (k + 1) % 16) +
          r % 16 ^ (k + 1) = 16 ^ (k + 2) * value + r % 16 ^ (k + 2) := by
        rw [Nat.pow_succ 16 (k + 1), Nat.mod_mul, Nat.mul_add, Nat.mul_assoc]
        omega
      rw [hex, List.cons_append]
      simp only [unescape, hdigit]
      rw [ih _ (by rw [hsplit]; exact hvalid), hsplit]

private theorem unescape_letter {r : Nat} {letter : UInt8}
    (h : letters.lookup r = some letter) (s : GoString) :
    unescape .text (0x5C :: letter :: s) =
      (unescape .text s).map (encodeRune r ++ ·) := by
  have hall : ∀ e ∈ letters, escapes.lookup e.2 = some e.1 := by decide
  obtain ⟨before, after, hsplit, -⟩ := List.lookup_eq_some_iff.mp h
  have hletter := hall (r, letter) (by rw [hsplit]; simp)
  simp [unescape, hletter]

/-- An escape by number is read as the character with this number. -/
private theorem unescape_numbered {letter : UInt8} {k r : Nat}
    (hletter : escapes.lookup letter = none)
    (hnumbered : numbered.lookup letter = some (k + 1)) (hlt : r < 16 ^ (k + 1))
    (hvalid : validRune r = true) (s : GoString) :
    unescape .text (0x5C :: letter :: (hex (k + 1) r ++ s)) =
      (unescape .text s).map (encodeRune r ++ ·) := by
  have hnumber : 16 ^ (k + 1) * 0 + r % 16 ^ (k + 1) = r := by
    rw [Nat.mul_zero, Nat.zero_add, Nat.mod_eq_of_lt hlt]
  have hdigits := unescape_hex r s k 0
  rw [hnumber] at hdigits
  rw [← hdigits hvalid]
  simp [unescape, hletter, hnumbered]

/-- **What Go writes for a character** is read as the character. -/
theorem unescape_escapedRune (wide : Nat → Bool) {r : Nat}
    (hvalid : validRune r = true) (s : GoString) :
    unescape .text (appendEscapedRune wide r ++ s) =
      (unescape .text s).map (encodeRune r ++ ·) := by
  have hmax : r ≤ 0x10FFFF := by
    simp only [validRune, Bool.and_eq_true, decide_eq_true_eq] at hvalid
    exact hvalid.1
  unfold appendEscapedRune
  split
  · next hspecial =>
    rcases hspecial with rfl | rfl <;> rfl
  split
  · next hspecial hprint =>
    refine unescape_append (fun b hb => ?_) s
    by_cases hascii : r < 0x80
    · rw [encodeRune, if_pos hascii, List.mem_singleton] at hb
      simp only [isPrint, if_pos hascii, Bool.and_eq_true,
        decide_eq_true_eq] at hprint
      have hall : ∀ n < 0x7F, 0x20 ≤ n → n ≠ 0x22 → n ≠ 0x5C →
          Unescaped (UInt8.ofNat n) := by decide +kernel
      rw [hb]
      exact hall r hprint.2 hprint.1 (fun h => hspecial (.inl h))
        fun h => hspecial (.inr h)
    · exact unescaped_of_ge (encodeRune_ge hvalid (by omega) b hb)
  split
  · next letter hletter =>
    exact unescape_letter hletter s
  split
  · next hcontrol =>
    exact unescape_numbered (k := 1) (by decide) (by decide) (by omega) hvalid s
  split
  · next hlt =>
    exact unescape_numbered (k := 3) (by decide) (by decide) hlt hvalid s
  · exact unescape_numbered (k := 7) (by decide) (by decide) (by omega) hvalid s

/-- **A text quoted by Go** is read as the text. -/
theorem unescape_quote (wide : Nat → Bool) {s : GoString} (hs : s.valid = true) :
    unescape .text (s.runes.flatMap (quoteRune wide) ++ [0x22]) = some s := by
  have hruns : ∀ rs : List (Nat × GoString), (∀ r ∈ rs, r ∈ s.runes) →
      unescape .text (rs.flatMap (quoteRune wide) ++ [0x22]) =
        some (rs.flatMap (·.2)) := by
    intro rs
    induction rs with
    | nil => exact fun _ => rfl
    | cons r rs ih =>
        intro hmem
        rw [List.forall_mem_cons] at hmem
        have hproper := valid_iff.mp hs r hmem.1
        obtain ⟨hbytes, hvalid, -⟩ := encode_rune hmem.1 hproper
        rw [List.flatMap_cons, List.append_assoc, quoteRune_of_proper wide hproper,
          unescape_escapedRune wide hvalid, ih hmem.2, hbytes]
        rfl
  rw [hruns _ fun _ h => h, flatMap_runes _ s (Nat.le_refl _)]

/-! ## What stands on a line -/

/-- A plain scalar is resolved by its text, a double-quoted one is a string. -/
inductive Scalar where
  | plain (text : GoString)
  | quoted (text : GoString)
  deriving DecidableEq, Repr

/-- A scalar, or a flow sequence of plain scalars. -/
inductive Value where
  | scalar (s : Scalar)
  | flow (words : List GoString)
  deriving DecidableEq, Repr

/-- What begins in a column: an item of a block sequence, a key of a block
mapping with the value behind it if there is one, or a value. -/
inductive Entry where
  | dash
  | key (name : GoString) (value : Option Value)
  | value (v : Value)
  deriving DecidableEq, Repr

/-- The bytes of the plain scalars that are read: none of them means anything to
YAML. -/
def isWordByte (b : UInt8) : Bool :=
  (0x61 ≤ b && b ≤ 0x7A) || (0x41 ≤ b && b ≤ 0x5A) || (0x30 ≤ b && b ≤ 0x39) ||
    b == 0x5F

def IsWord (s : GoString) : Prop := s ≠ [] ∧ ∀ b ∈ s, isWordByte b = true

instance (s : GoString) : Decidable (IsWord s) :=
  inferInstanceAs (Decidable (_ ∧ _))

/-- A word that is not too long for an implicit key. -/
def IsKey (s : GoString) : Prop := IsWord s ∧ s.length ≤ 1024

instance (s : GoString) : Decidable (IsKey s) :=
  inferInstanceAs (Decidable (_ ∧ _))

/-- The words of a flow sequence, from behind its opening bracket; `word` is
what has been read of the next one. -/
def readItems : GoString → GoString → Option (List GoString)
  | _, [] => none
  | word, b :: s =>
      if isWordByte b then readItems (word ++ [b]) s
      else if b = 0x20 then if word = [] then readItems [] s else none
      else if word = [] then none
      else if b = 0x2C then (readItems [] s).map (word :: ·)
      else if b = 0x5D ∧ s = [] then some [word]
      else none

def readValue (s : GoString) : Option Value :=
  match s with
  | 0x22 :: s => (unescape .text s).map (.scalar ∘ .quoted)
  | 0x5B :: s => (readItems [] s).map .flow
  | s => if IsWord s then some (.scalar (.plain s)) else none

def readEntry (s : GoString) : Option Entry :=
  let word := s.takeWhile isWordByte
  match s.dropWhile isWordByte with
  | [0x3A] => if IsKey word then some (.key word none) else none
  | 0x3A :: 0x20 :: v =>
      if IsKey word then
        (readValue (v.dropWhile (· = 0x20))).map (.key word ∘ some)
      else none
  | _ => (readValue s).map .value

/-- The entries of a line from the column `col` on. -/
def readLine : Nat → GoString → Option (List (Nat × Entry))
  | _, [] => none
  | col, b :: s =>
      if b = 0x20 then readLine (col + 1) s
      else if b = 0x2D ∧ s.head? = some 0x20 then
        (readLine (col + 1) s).map ((col, .dash) :: ·)
      else (readEntry (b :: s)).map fun e => [(col, e)]

/-- The lines of a text. -/
def lines : GoString → List GoString
  | [] => []
  | b :: s =>
      if b = 0x0A then [] :: lines s
      else match lines s with
        | [] => [[b]]
        | l :: ls => (b :: l) :: ls

/-- The entries of a text. -/
def readText (text : GoString) : Option (List (Nat × Entry)) :=
  ((lines text).mapM (readLine 0)).map List.flatten

/-! ## Columns -/

/-- Entries by their columns: below an entry stand the ones that follow it and
begin further to the right. -/
inductive Forest where
  | nil
  | cons (col : Nat) (entry : Entry) (below next : Forest)
  deriving DecidableEq, Repr

namespace Forest

/-- The first trees, as far as they are to the right of `col`, and the others. -/
def split (col : Nat) : Forest → Forest × Forest
  | .nil => (.nil, .nil)
  | .cons c e below next =>
      if col < c then (.cons c e below (split col next).1, (split col next).2)
      else (.nil, .cons c e below next)

def ofEntries : List (Nat × Entry) → Forest
  | [] => .nil
  | (col, e) :: es =>
      .cons col e ((ofEntries es).split col).1 ((ofEntries es).split col).2

/-- The entries in the order of the text. -/
def entries : Forest → List (Nat × Entry)
  | .nil => []
  | .cons col e below next => (col, e) :: (below.entries ++ next.entries)

def append : Forest → Forest → Forest
  | .nil, g => g
  | .cons col e below next, g => .cons col e below (append next g)

end Forest

/-! ## Nodes -/

inductive Node where
  | value (v : Value)
  | seq (items : List Node)
  | map (entries : List (GoString × Node))

/-- An entry, and the node below it if there is one. -/
structure Branch where
  col : Nat
  entry : Entry
  below : Option Node

/-- An item of a block sequence in the column `col`. -/
def Branch.item (col : Nat) : Branch → Option Node
  | ⟨c, .dash, some n⟩ => if c = col then some n else none
  | _ => none

/-- An entry of a block mapping in the column `col`. -/
def Branch.pair (col : Nat) : Branch → Option (GoString × Node)
  | ⟨c, .key k none, some n⟩ => if c = col then some (k, n) else none
  | ⟨c, .key k (some v), none⟩ => if c = col then some (k, .value v) else none
  | _ => none

/-- The node that the branches of one level are. -/
def assemble : List Branch → Option Node
  | [⟨_, .value v, none⟩] => some (.value v)
  | ⟨col, .dash, n⟩ :: bs =>
      ((⟨col, .dash, n⟩ :: bs).mapM (Branch.item col)).map .seq
  | ⟨col, .key k v, n⟩ :: bs => do
      let es ← (⟨col, .key k v, n⟩ :: bs).mapM (Branch.pair col)
      if (es.map Prod.fst).Nodup then some (.map es) else none
  | _ => none

/-- The branches of a forest. -/
def Forest.branches : Forest → Option (List Branch)
  | .nil => some []
  | .cons col e below next => do
      let bs ← below.branches
      let n ← if bs.isEmpty then some none else (assemble bs).map some
      let rest ← next.branches
      some (⟨col, e, n⟩ :: rest)

def Forest.node (f : Forest) : Option Node := f.branches.bind assemble

/-- The document that a text holds. -/
def load (text : GoString) : Option Node :=
  if text.valid then
    (readText text).bind fun es => (Forest.ofEntries es).node
  else none

/-! ## Values -/

/-- The plain words that are no strings by the core schema, but for the numbers,
which begin with a digit. -/
def keywords : List GoString :=
  ["null", "Null", "NULL", "true", "True", "TRUE", "false", "False", "FALSE"]

/-- A scalar that is a string; of the plain ones, those that begin with a digit
are refused. -/
def Scalar.text : Scalar → Option GoString
  | .quoted t => some t
  | .plain t =>
      if t ∈ keywords ∨ t.head?.any (fun b => 0x30 ≤ b && b ≤ 0x39) then none
      else some t

def Scalar.bool : Scalar → Option Bool
  | .quoted _ => none
  | .plain t =>
      if t ∈ [lit "true", lit "True", lit "TRUE"] then some true
      else if t ∈ [lit "false", lit "False", lit "FALSE"] then some false
      else none

namespace Node

def text : Node → Option GoString
  | .value (.scalar s) => s.text
  | _ => none

def bool : Node → Option Bool
  | .value (.scalar s) => s.bool
  | _ => none

/-- The items of a sequence, in block style or in flow style. -/
def items : Node → Option (List Node)
  | .seq ns => some ns
  | .value (.flow words) => some (words.map fun w => .value (.scalar (.plain w)))
  | _ => none

def list {α : Type} (read : Node → Option α) (n : Node) : Option (List α) :=
  n.items.bind (·.mapM read)

def fields : Node → Option (List (GoString × Node))
  | .map es => some es
  | _ => none

end Node

/-- The value of the key `k`, or `zero` if there is none. -/
def field {α : Type} (read : Node → Option α) (zero : α)
    (es : List (GoString × Node)) (k : GoString) : Option α :=
  (es.lookup k).elim (some zero) read

/-- The entries of a mapping whose keys may be left out. -/
def present (fs : List (GoString × Option Node)) : List (GoString × Node) :=
  fs.filterMap fun f => f.2.map (f.1, ·)

@[simp] theorem present_nil : present [] = [] := rfl

@[simp] theorem present_none (k : GoString) (fs : List (GoString × Option Node)) :
    present ((k, none) :: fs) = present fs := rfl

@[simp] theorem present_some (k : GoString) (n : Node)
    (fs : List (GoString × Option Node)) :
    present ((k, some n) :: fs) = (k, n) :: present fs := rfl

/-- Different keys that can be written. -/
def Keys (ks : List GoString) : Prop := ks.Nodup ∧ ∀ k ∈ ks, IsKey k

instance (ks : List GoString) : Decidable (Keys ks) :=
  inferInstanceAs (Decidable (_ ∧ _))

theorem Keys.of_append {ks ls : List GoString} (h : Keys (ks ++ ls)) :
    Keys ks ∧ Keys ls := by
  obtain ⟨hnodup, hkeys⟩ := h
  rw [List.forall_mem_append] at hkeys
  exact ⟨⟨List.Nodup.of_append_left hnodup, hkeys.1⟩,
    List.Nodup.of_append_right hnodup, hkeys.2⟩

theorem mem_keys_present {fs : List (GoString × Option Node)} {k : GoString}
    (h : k ∈ (present fs).map Prod.fst) : k ∈ fs.map Prod.fst := by
  induction fs with
  | nil => exact h
  | cons f fs ih =>
      obtain ⟨k', n⟩ := f
      cases n with
      | none => exact List.mem_cons_of_mem _ (ih h)
      | some n =>
          rw [present_some, List.map_cons, List.mem_cons] at h
          rw [List.map_cons, List.mem_cons]
          exact h.imp_right ih

theorem nodup_present {fs : List (GoString × Option Node)}
    (h : (fs.map Prod.fst).Nodup) : ((present fs).map Prod.fst).Nodup := by
  induction fs with
  | nil => exact h
  | cons f fs ih =>
      obtain ⟨k, n⟩ := f
      rw [List.map_cons, List.nodup_cons] at h
      cases n with
      | none => exact ih h.2
      | some n =>
          rw [present_some, List.map_cons, List.nodup_cons]
          exact ⟨fun hmem => h.1 (mem_keys_present hmem), ih h.2⟩

theorem lookup_present {fs : List (GoString × Option Node)} {k : GoString}
    {n : Option Node} (hnodup : (fs.map Prod.fst).Nodup) (h : (k, n) ∈ fs) :
    (present fs).lookup k = n := by
  induction fs with
  | nil => cases h
  | cons f fs ih =>
      obtain ⟨k', n'⟩ := f
      rw [List.map_cons, List.nodup_cons] at hnodup
      rcases List.mem_cons.mp h with heq | hmem
      · obtain ⟨rfl, rfl⟩ := Prod.mk.inj heq
        cases n with
        | none =>
            rw [present_none, List.lookup_eq_none_iff]
            intro e he
            have hne : k ≠ e.1 := by
              rintro rfl
              exact hnodup.1 (mem_keys_present (List.mem_map_of_mem he))
            simpa using hne
        | some n => simp
      · have hne : (k == k') = false := by
          rw [beq_eq_false_iff_ne]
          rintro rfl
          exact hnodup.1 (List.mem_map.mpr ⟨_, hmem, rfl⟩)
        cases n' with
        | none => exact ih hnodup.2 hmem
        | some n' =>
            rw [present_some, List.lookup_cons, hne]
            exact ih hnodup.2 hmem

/-- **A field** is read back from the fields that are present. -/
theorem field_present {α : Type} {read : Node → Option α} {zero a : α}
    {fs : List (GoString × Option Node)} {k : GoString} {n : Option Node}
    (hkeys : Keys (fs.map Prod.fst)) (h : (k, n) ∈ fs)
    (hread : n.elim (some zero) read = some a) :
    field read zero (present fs) k = some a := by
  rw [field, lookup_present hkeys.1 h, hread]

/-! ## Values that are left out when they are empty -/

/-- A string, which is written quoted. -/
def Node.str (s : GoString) : Node := .value (.scalar (.quoted s))

def givenText (s : GoString) : Option Node :=
  if s = [] then none else some (.str s)

def givenFlag (b : Bool) : Option Node :=
  if b then some (.value (.scalar (.plain "true"))) else none

def givenList {α : Type} (node : α → Node) (xs : List α) : Option Node :=
  if xs = [] then none else some (.seq (xs.map node))

@[simp] theorem givenText_nil : givenText [] = none := rfl

@[simp] theorem givenList_nil {α : Type} (node : α → Node) :
    givenList node [] = none := rfl

theorem present_text {s : GoString} (hs : s ≠ []) (k : GoString)
    (fs : List (GoString × Option Node)) :
    present ((k, givenText s) :: fs) = (k, .str s) :: present fs := by
  rw [givenText, if_neg hs, present_some]

theorem present_list {α : Type} {node : α → Node} {xs : List α} (hne : xs ≠ [])
    (k : GoString) (fs : List (GoString × Option Node)) :
    present ((k, givenList node xs) :: fs) =
      (k, .seq (xs.map node)) :: present fs := by
  rw [givenList, if_neg hne, present_some]

theorem read_givenText (s : GoString) :
    (givenText s).elim (some []) Node.text = some s := by
  unfold givenText
  split
  · next hempty => rw [hempty]; rfl
  · rfl

theorem read_givenFlag (b : Bool) :
    (givenFlag b).elim (some false) Node.bool = some b := by
  cases b with
  | false => rfl
  | true => simp [givenFlag, Node.bool, Scalar.bool]

theorem read_givenList {α : Type} {node : α → Node} {read : Node → Option α}
    {xs : List α} (h : ∀ x ∈ xs, read (node x) = some x) :
    (givenList node xs).elim (some []) (Node.list read) = some xs := by
  have hmap : (xs.map node).mapM read = some xs := by
    induction xs with
    | nil => rfl
    | cons x xs ih =>
        rw [List.forall_mem_cons] at h
        simp [h.1, ih h.2]
  unfold givenList
  split
  · next hempty => rw [hempty]; rfl
  · exact hmap

/-- A reader goes on with what it has read. -/
theorem bind_eq_some {α β : Type} {x : Option α} {f : α → Option β} {a : α} {b : β}
    (hx : x = some a) (hf : f a = some b) : (x >>= f) = some b := by
  rw [hx]
  exact hf

/-- A field that is a string is read back, and so is a list. -/
theorem field_text {fs : List (GoString × Option Node)}
    (hkeys : Keys (fs.map Prod.fst)) {k s : GoString} (h : (k, givenText s) ∈ fs) :
    field Node.text [] (present fs) k = some s :=
  field_present hkeys h (read_givenText s)

theorem field_flag {fs : List (GoString × Option Node)}
    (hkeys : Keys (fs.map Prod.fst)) {k : GoString} {b : Bool}
    (h : (k, givenFlag b) ∈ fs) :
    field Node.bool false (present fs) k = some b :=
  field_present hkeys h (read_givenFlag b)

theorem field_list {α : Type} {fs : List (GoString × Option Node)}
    (hkeys : Keys (fs.map Prod.fst)) {node : α → Node} {read : Node → Option α}
    {k : GoString} {xs : List α} (hread : ∀ x ∈ xs, read (node x) = some x)
    (h : (k, givenList node xs) ∈ fs) :
    field (Node.list read) [] (present fs) k = some xs :=
  field_present hkeys h (read_givenList hread)

end Hdns.Verified.Yaml

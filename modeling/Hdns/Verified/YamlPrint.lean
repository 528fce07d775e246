import Hdns.Verified.Yaml

/-!
# Writing YAML

Nodes are written in block style, two columns to the right for each level;
values are written behind their keys.  How a text is quoted is a parameter.

## Main results

* `readText_write` — what entries are written as is read as the entries.
* `load_print` — a document that is written in block style is read back.
* `print_value`, `print_block`, `print_item` — the lines of a document.
-/

namespace Hdns.Verified.Yaml

open Hdns.Verified.GoString
open Hdns.Verified.Json
open Hdns.Verified.GoQuote

/-! ## Writing in block style -/

/-- A text that `quote` writes as a double-quoted scalar on one line. -/
structure Quotes (quote : GoString → GoString) (t : GoString) : Prop where
  reads : ∃ body, quote t = 0x22 :: body ∧ unescape .text body = some t
  ge : ∀ b ∈ quote t, 0x20 ≤ b
  valid : (quote t).valid = true

/-- `strconv.Quote` writes double-quoted scalars. -/
theorem quotes_quote (wide : Nat → Bool) {t : GoString} (ht : t.valid = true) :
    Quotes (GoQuote.quote wide) t where
  reads := ⟨_, rfl, unescape_quote wide ht⟩
  ge := quote_ge wide ht
  valid := valid_quote wide ht

section Write

variable (quote : GoString → GoString)

def Scalar.write : Scalar → GoString
  | .plain text => text
  | .quoted text => quote text

def Value.write : Value → GoString
  | .scalar s => s.write quote
  | .flow words => 0x5B :: (GoString.join words ", " ++ [0x5D])

def Entry.write : Entry → GoString
  | .dash => "-"
  | .key k none => k ++ lit ":"
  | .key k (some v) => k ++ lit ": " ++ v.write quote
  | .value v => v.write quote

def Scalar.Wf : Scalar → Prop
  | .plain text => IsWord text
  | .quoted text => Quotes quote text

def Value.Wf : Value → Prop
  | .scalar s => s.Wf quote
  | .flow words => words ≠ [] ∧ ∀ w ∈ words, IsWord w

def Entry.Wf : Entry → Prop
  | .dash => True
  | .key k none => IsKey k
  | .key k (some v) => IsKey k ∧ v.Wf quote
  | .value v => v.Wf quote

/-- Entries as a text; `start` says whether they begin a line. -/
def write : Bool → List (Nat × Entry) → GoString
  | _, [] => []
  | start, (col, e) :: es =>
      (if start then List.replicate col 0x20 else []) ++
        if e = .dash then lit "- " ++ write false es
        else e.write quote ++ 0x0A :: write true es

end Write

/-! ## Reading a line that was written -/

theorem isWordByte_ne {b : UInt8} (h : isWordByte b = true) :
    b ∉ [0x0A, 0x20, 0x22, 0x2C, 0x2D, 0x3A, 0x5B, 0x5D] ∧ 0x20 ≤ b ∧ b < 0x80 := by
  revert b
  apply forall_byte
  decide +kernel

theorem readItems_append {w : GoString} (h : ∀ b ∈ w, isWordByte b = true) :
    ∀ word s, readItems word (w ++ s) = readItems (word ++ w) s := by
  induction w with
  | nil => simp
  | cons b w ih =>
      intro word s
      rw [List.forall_mem_cons] at h
      rw [List.cons_append, readItems, if_pos h.1, ih h.2, List.append_assoc]
      rfl

theorem readItems_join : ∀ {words : List GoString}, words ≠ [] →
    (∀ w ∈ words, IsWord w) →
      readItems [] (GoString.join words ", " ++ [0x5D]) = some words := by
  intro words
  induction words with
  | nil => exact fun h => absurd rfl h
  | cons w words ih =>
      intro _ hwords
      rw [List.forall_mem_cons] at hwords
      obtain ⟨⟨hne, hbytes⟩, hrest⟩ := hwords
      have hcomma : isWordByte 0x2C = false := by decide
      have hbracket : isWordByte 0x5D = false := by decide
      have hspace : isWordByte 0x20 = false := by decide
      cases words with
      | nil =>
          simp [GoString.join, readItems_append hbytes, readItems, hbracket, hne]
      | cons w' words =>
          have hjoin : GoString.join (w :: w' :: words) ", " =
              w ++ (0x2C :: 0x20 :: GoString.join (w' :: words) ", ") :=
            join_cons_next w w' words ", "
          rw [hjoin, List.append_assoc, readItems_append hbytes]
          have := ih (by simp) hrest
          simp [readItems, hcomma, hspace, hne, this]

section Read

variable {quote : GoString → GoString}

/-- A value is written on one line, and begins with neither a space, a dash nor
a colon. -/
structure Written (s : GoString) : Prop where
  begins : ∃ b t, s = b :: t ∧ b ∉ [0x20, 0x2D, 0x3A]
  ge : ∀ b ∈ s, 0x20 ≤ b
  valid : s.valid = true

theorem IsWord.written {w : GoString} (h : IsWord w) : Written w := by
  obtain ⟨hne, hbytes⟩ := h
  refine ⟨?_, fun b hb => (isWordByte_ne (hbytes b hb)).2.1,
    valid_of_ascii fun b hb => (isWordByte_ne (hbytes b hb)).2.2⟩
  obtain ⟨b, t, rfl⟩ := List.exists_cons_of_ne_nil hne
  have hb := (isWordByte_ne (hbytes b List.mem_cons_self)).1
  exact ⟨b, t, rfl, fun hmem => hb (by simp at hmem ⊢; tauto)⟩

theorem written_value {v : Value} (h : v.Wf quote) : Written (v.write quote) := by
  cases v with
  | scalar s =>
      cases s with
      | plain text => exact IsWord.written h
      | quoted text =>
          obtain ⟨body, hbody, -⟩ := Quotes.reads h
          exact ⟨⟨_, _, hbody, by decide⟩, h.ge, h.valid⟩
  | flow words =>
      have hascii : ∀ b ∈ (Value.flow words).write quote, 0x20 ≤ b ∧ b < 0x80 := by
        intro b hb
        simp only [Value.write, List.mem_cons, List.mem_append,
          List.not_mem_nil, or_false] at hb
        rcases hb with rfl | hb | rfl
        · decide
        · rcases mem_join hb with hb | ⟨w, hw, hb⟩
          · have hsep : ∀ b ∈ lit ", ", 0x20 ≤ b ∧ b < 0x80 := by decide +kernel
            exact hsep b hb
          · exact (isWordByte_ne ((h.2 w hw).2 b hb)).2
        · decide
      exact ⟨⟨_, _, rfl, by decide⟩, fun b hb => (hascii b hb).1,
        valid_of_ascii fun b hb => (hascii b hb).2⟩

theorem readValue_word {w : GoString} (h : IsWord w) :
    readValue w = some (.scalar (.plain w)) := by
  have hquote : isWordByte 0x22 = false := by decide
  have hbracket : isWordByte 0x5B = false := by decide
  unfold readValue
  split
  · simp [IsWord, hquote] at h
  · simp [IsWord, hbracket] at h
  · rw [if_pos h]

theorem readValue_write {v : Value} (h : v.Wf quote) :
    readValue (v.write quote) = some v := by
  cases v with
  | scalar s =>
      cases s with
      | plain text => exact readValue_word h
      | quoted text =>
          obtain ⟨body, hbody, hread⟩ := Quotes.reads h
          show readValue (quote text) = _
          rw [hbody, readValue, hread]
          rfl
  | flow words =>
      show readValue (0x5B :: _) = _
      rw [readValue, readItems_join h.1 h.2]
      rfl

/-- A word in front of something else. -/
theorem span_word {w s : GoString} (hw : IsWord w)
    (hs : ∀ b ∈ s.head?, isWordByte b = false) :
    (w ++ s).takeWhile isWordByte = w ∧ (w ++ s).dropWhile isWordByte = s := by
  have hnone : s.takeWhile isWordByte = [] ∧ s.dropWhile isWordByte = s := by
    cases s with
    | nil => exact ⟨rfl, rfl⟩
    | cons b s => simp [hs b rfl]
  rw [List.takeWhile_append_of_pos hw.2, List.dropWhile_append_of_pos hw.2,
    hnone.1, hnone.2, List.append_nil]
  exact ⟨rfl, rfl⟩

/-- A value is not taken for a key. -/
theorem dropWhile_value {v : Value} (h : v.Wf quote) (t : GoString) :
    (v.write quote).dropWhile isWordByte ≠ 0x3A :: t := by
  have hother : ∀ b s, isWordByte b = false → b ≠ 0x3A →
      (b :: s).dropWhile isWordByte ≠ 0x3A :: t := by
    intro b s hb hne heq
    rw [List.dropWhile_cons_of_neg (by simp [hb])] at heq
    exact hne (List.cons.inj heq).1
  cases v with
  | scalar s =>
      cases s with
      | plain text =>
          have hspan := span_word h (s := []) (by simp)
          rw [List.append_nil] at hspan
          show text.dropWhile isWordByte ≠ _
          rw [hspan.2]
          exact List.cons_ne_nil _ _ ∘ Eq.symm
      | quoted text =>
          obtain ⟨body, hbody, -⟩ := Quotes.reads h
          show (quote text).dropWhile isWordByte ≠ _
          rw [hbody]
          exact hother _ _ (by decide) (by decide)
  | flow words => exact hother _ _ (by decide) (by decide)

theorem readEntry_write {e : Entry} (h : e.Wf quote) (hdash : e ≠ .dash) :
    readEntry (e.write quote) = some e := by
  cases e with
  | dash => exact absurd rfl hdash
  | key k v =>
      have hcolon : isWordByte 0x3A = false := by decide
      cases v with
      | none =>
          obtain ⟨htake, hdrop⟩ := span_word h.1 (s := [0x3A]) (by simp [hcolon])
          have hkey : IsKey k := h
          show readEntry (k ++ [0x3A]) = _
          simp only [readEntry, htake, hdrop, if_pos hkey]
      | some v =>
          obtain ⟨hk, hv⟩ := h
          obtain ⟨b, t, hbegin, hb⟩ := (written_value hv).begins
          obtain ⟨htake, hdrop⟩ := span_word hk.1
            (s := 0x3A :: 0x20 :: v.write quote) (by simp [hcolon])
          have hspace : (v.write quote).dropWhile (· = 0x20) = v.write quote := by
            rw [hbegin, List.dropWhile_cons_of_neg (by simp at hb ⊢; tauto)]
          show readEntry (k ++ lit ": " ++ v.write quote) = _
          rw [List.append_assoc]
          show readEntry (k ++ (0x3A :: 0x20 :: v.write quote)) = _
          simp only [readEntry, htake, hdrop, if_pos hk, hspace,
            readValue_write hv]
          rfl
  | value v =>
      have hkey : ∀ t, (v.write quote).dropWhile isWordByte ≠ 0x3A :: t :=
        dropWhile_value h
      have hvalue := readValue_write h
      show readEntry (v.write quote) = _
      unfold readEntry
      split
      · next hdrop => exact absurd hdrop (hkey _)
      · next hdrop => exact absurd hdrop (hkey _)
      · rw [hvalue]
        rfl

theorem Written.append {s t : GoString} (hs : Written s) (hge : ∀ b ∈ t, 0x20 ≤ b)
    (ht : t.valid = true) : Written (s ++ t) := by
  obtain ⟨b, u, rfl, hb⟩ := hs.begins
  exact ⟨⟨b, u ++ t, rfl, hb⟩, List.forall_mem_append.mpr ⟨hs.ge, hge⟩,
    valid_append hs.valid ht⟩

theorem written_entry {e : Entry} (h : e.Wf quote) (hdash : e ≠ .dash) :
    Written (e.write quote) := by
  cases e with
  | dash => exact absurd rfl hdash
  | key k v =>
      cases v with
      | none => exact (IsWord.written h.1).append (by decide +kernel) (by decide +kernel)
      | some v =>
          have hv := written_value h.2
          exact ((IsWord.written h.1.1).append (by decide +kernel)
            (by decide +kernel)).append hv.ge hv.valid
  | value v => exact written_value h

/-! ## Reading a text that was written -/

theorem readLine_spaces (s : GoString) : ∀ n col,
    readLine col (List.replicate n 0x20 ++ s) = readLine (col + n) s := by
  intro n
  induction n with
  | zero => simp
  | succ n ih =>
      intro col
      rw [List.replicate_succ, List.cons_append, readLine, if_pos rfl, ih]
      congr 1
      omega

theorem readLine_dash (col : Nat) (s : GoString) :
    readLine col (lit "- " ++ s) =
      (readLine (col + 2) s).map ((col, .dash) :: ·) := by
  show readLine col (0x2D :: 0x20 :: s) = _
  rw [readLine, if_neg (by decide), if_pos ⟨rfl, rfl⟩, readLine, if_pos rfl]

theorem readLine_entry {e : Entry} (h : e.Wf quote) (hdash : e ≠ .dash)
    (col : Nat) : readLine col (e.write quote) = some [(col, e)] := by
  have hread := readEntry_write h hdash
  obtain ⟨b, t, hbegin, hb⟩ := (written_entry h hdash).begins
  rw [hbegin] at hread ⊢
  simp only [List.mem_cons, List.not_mem_nil, or_false, not_or] at hb
  rw [readLine, if_neg hb.1, if_neg fun hdash => hb.2.1 hdash.1, hread]
  rfl

theorem lines_append {l : GoString} (h : ∀ b ∈ l, 0x20 ≤ b) (s : GoString) :
    lines (l ++ 0x0A :: s) = l :: lines s := by
  induction l with
  | nil => rw [List.nil_append, lines, if_pos rfl]
  | cons b l ih =>
      rw [List.forall_mem_cons] at h
      have hb : b ≠ 0x0A := by
        rintro rfl
        exact absurd h.1 (by decide)
      rw [List.cons_append, lines, if_neg hb, ih h.2]

/-- Behind a dash on a line something else begins. -/
def Chained : List (Nat × Entry) → Prop
  | [] => True
  | (col, e) :: es =>
      (e = .dash → ∃ e' rest, es = (col + 2, e') :: rest) ∧ Chained es

/-- **The first line** of what entries are written as. -/
theorem write_line : ∀ (es : List (Nat × Entry)) (col : Nat) (e : Entry),
    Chained ((col, e) :: es) → (∀ x ∈ (col, e) :: es, Entry.Wf quote x.2) →
      ∃ line group rest, write quote false ((col, e) :: es) =
          line ++ 0x0A :: write quote true rest ∧
        (∀ b ∈ line, 0x20 ≤ b) ∧ line.valid = true ∧
        readLine col line = some group ∧ group ≠ [] ∧
        (col, e) :: es = group ++ rest ∧ Chained rest := by
  intro es
  induction es with
  | nil =>
      intro col e hchained hwf
      have hdash : e ≠ .dash := by
        intro hdash
        obtain ⟨_, _, hnext⟩ := hchained.1 hdash
        cases hnext
      have he := hwf _ List.mem_cons_self
      have hwritten := written_entry he hdash
      refine ⟨e.write quote, [(col, e)], [], ?_, hwritten.ge, hwritten.valid,
        readLine_entry he hdash col, by simp, rfl, trivial⟩
      simp [write, hdash]
  | cons x es ih =>
      intro col e hchained hwf
      have he := hwf _ List.mem_cons_self
      by_cases hdash : e = .dash
      · obtain ⟨e', rest', hnext⟩ := hchained.1 hdash
        obtain ⟨rfl, rfl⟩ := List.cons.inj hnext
        obtain ⟨line, group, rest, hwrite, hge, hvalid, hread, hne, hsplit,
          hrest⟩ := ih (col + 2) e' hchained.2
            fun x hx => hwf x (List.mem_cons_of_mem _ hx)
        refine ⟨lit "- " ++ line, (col, .dash) :: group, rest, ?_, ?_, ?_, ?_,
          by simp, ?_, hrest⟩
        · rw [write, if_pos hdash, hwrite]
          simp
        · exact List.forall_mem_append.mpr ⟨by decide +kernel, hge⟩
        · exact valid_append (by decide +kernel) hvalid
        · rw [readLine_dash, hread]
          rfl
        · rw [hsplit, hdash]
          rfl
      · have hwritten := written_entry he hdash
        refine ⟨e.write quote, [(col, e)], x :: es, ?_, hwritten.ge,
          hwritten.valid, readLine_entry he hdash col, by simp, rfl, hchained.2⟩
        rw [write, if_neg hdash]
        rfl

/-- **What entries are written as** is a valid text, and read as the entries. -/
theorem readText_write : ∀ (n : Nat) (es : List (Nat × Entry)), es.length ≤ n →
    Chained es → (∀ x ∈ es, Entry.Wf quote x.2) →
      readText (write quote true es) = some es ∧
        (write quote true es).valid = true := by
  intro n
  induction n with
  | zero =>
      intro es hn _ _
      obtain rfl := List.length_eq_zero_iff.mp (Nat.le_zero.mp hn)
      exact ⟨rfl, rfl⟩
  | succ n ih =>
      intro es hn hchained hwf
      cases es with
      | nil => exact ⟨rfl, rfl⟩
      | cons x es =>
          obtain ⟨col, e⟩ := x
          obtain ⟨line, group, rest, hwrite, hge, hvalid, hread, hne, hsplit,
            hrest⟩ := write_line es col e hchained hwf
          have hstart : write quote true ((col, e) :: es) =
              (List.replicate col 0x20 ++ line) ++
                0x0A :: write quote true rest := by
            rw [List.append_assoc, ← hwrite]
            simp [write]
          have hlength : rest.length ≤ n := by
            have := congrArg List.length hsplit
            have := List.length_pos_of_ne_nil hne
            simp at *
            omega
          obtain ⟨hrestread, hrestvalid⟩ := ih rest hlength hrest
            fun x hx => hwf x (by rw [hsplit]; exact List.mem_append_right _ hx)
          have hspaces : ∀ b ∈ List.replicate col (0x20 : UInt8), b = 0x20 :=
            fun b hb => List.eq_of_mem_replicate hb
          have hfirst : readLine 0 (List.replicate col 0x20 ++ line) =
              some group := by
            rw [readLine_spaces, Nat.zero_add, hread]
          rw [hstart]
          constructor
          · obtain ⟨groups, hgroups, hflat⟩ := Option.map_eq_some_iff.mp hrestread
            rw [readText, lines_append (List.forall_mem_append.mpr
              ⟨fun b hb => by rw [hspaces b hb]; decide, hge⟩), List.mapM_cons,
              hfirst, hgroups, hsplit, ← hflat]
            rfl
          · refine valid_append (valid_append ?_ hvalid)
              (valid_append (s := [0x0A]) (by decide) hrestvalid)
            exact valid_of_ascii fun b hb => by rw [hspaces b hb]; decide

end Read

/-! ## Columns that were written -/

namespace Forest

/-- The trees of a level begin in the column `col`, and those below them further
to the right. -/
def At (col : Nat) : Forest → Prop
  | .nil => True
  | .cons c _ below next => c = col ∧ (∃ c' > col, below.At c') ∧ next.At col

/-- The first tree begins in the column `col` or to the left of it. -/
def Left (col : Nat) : Forest → Prop
  | .nil => True
  | .cons c _ _ _ => c ≤ col

theorem split_append {col c : Nat} (hc : col < c) {g : Forest} (hg : g.Left col) :
    ∀ {f : Forest}, f.At c → (f.append g).split col = (f, g) := by
  intro f
  induction f with
  | nil =>
      intro _
      cases g with
      | nil => rfl
      | cons c' e below next =>
          have hle : ¬col < c' := Nat.not_lt.mpr hg
          rw [append, split, if_neg hle]
  | cons c' e below next _ ihnext =>
      rintro ⟨rfl, -, hnext⟩
      rw [append, split, if_pos hc, ihnext hnext]

theorem left_append {col : Nat} {f g : Forest} (hf : f.At col) (hg : g.Left col) :
    (f.append g).Left col := by
  cases f with
  | nil => exact hg
  | cons c e below next => exact Nat.le_of_eq hf.1

theorem Left.mono {col c : Nat} (h : col ≤ c) {f : Forest} (hf : f.Left col) :
    f.Left c := by
  cases f with
  | nil => trivial
  | cons c' e below next => exact Nat.le_trans hf h

/-- **The forest of entries** that were written one below the other. -/
theorem ofEntries_append : ∀ {f : Forest} {col : Nat} {es : List (Nat × Entry)},
    f.At col → (ofEntries es).Left col →
      ofEntries (f.entries ++ es) = f.append (ofEntries es) := by
  intro f
  induction f with
  | nil => exact fun _ _ => rfl
  | cons c e below next ihbelow ihnext =>
      rintro col es ⟨rfl, ⟨c', hc', hbelow⟩, hnext⟩ hes
      have hrest := ihnext hnext hes
      have hleft : (next.append (ofEntries es)).Left c := left_append hnext hes
      rw [entries, List.cons_append, ofEntries, List.append_assoc,
        ihbelow hbelow (by rw [hrest]; exact hleft.mono (Nat.le_of_lt hc')),
        hrest, split_append hc' hleft hbelow]
      rfl

theorem append_nil (f : Forest) : f.append .nil = f := by
  induction f with
  | nil => rfl
  | cons c e below next _ ih => rw [append, ih]

theorem ofEntries_entries {f : Forest} {col : Nat} (h : f.At col) :
    ofEntries f.entries = f := by
  have happend : ofEntries (f.entries ++ []) = f.append .nil :=
    ofEntries_append h trivial
  rwa [List.append_nil, append_nil] at happend

end Forest

/-! ## Nodes that were written -/

/-- The value that stands behind a key. -/
def Node.inline : Node → Option Value
  | .value v => some v
  | _ => none

mutual

/-- A node in block style, from the column `col` on. -/
def Node.forest (col : Nat) : Node → Forest
  | .value v => .cons col (.value v) .nil .nil
  | .seq items => itemsForest col items
  | .map entries => pairsForest col entries

def itemsForest (col : Nat) : List Node → Forest
  | [] => .nil
  | n :: ns => .cons col .dash (n.forest (col + 2)) (itemsForest col ns)

def pairsForest (col : Nat) : List (GoString × Node) → Forest
  | [] => .nil
  | (k, n) :: es =>
      .cons col (.key k n.inline)
        (if n.inline.isSome then .nil else n.forest (col + 2))
        (pairsForest col es)

end

/-- A node that can be written in block style. -/
inductive Node.Wf (quote : GoString → GoString) : Node → Prop
  | value {v : Value} (h : v.Wf quote) : Node.Wf quote (.value v)
  | seq {items : List Node} (hne : items ≠ [])
      (h : ∀ n ∈ items, Node.Wf quote n) : Node.Wf quote (.seq items)
  | map {entries : List (GoString × Node)} (hne : entries ≠ [])
      (hkeys : ∀ e ∈ entries, IsKey e.1)
      (hnodup : (entries.map Prod.fst).Nodup)
      (h : ∀ e ∈ entries, Node.Wf quote e.2) : Node.Wf quote (.map entries)

section Nodes

variable {quote : GoString → GoString}

/-- The branch of an item, and of an entry. -/
def itemBranch (col : Nat) (n : Node) : Branch := ⟨col, .dash, some n⟩

def pairBranch (col : Nat) (e : GoString × Node) : Branch :=
  ⟨col, .key e.1 e.2.inline, if e.2.inline.isSome then none else some e.2⟩

theorem mapM_item (col : Nat) (ns : List Node) :
    (ns.map (itemBranch col)).mapM (Branch.item col) = some ns := by
  induction ns with
  | nil => rfl
  | cons n ns ih => simp [itemBranch, Branch.item, ih]

theorem mapM_pair (col : Nat) (es : List (GoString × Node)) :
    (es.map (pairBranch col)).mapM (Branch.pair col) = some es := by
  induction es with
  | nil => rfl
  | cons e es ih =>
      obtain ⟨k, n⟩ := e
      cases n <;> simp [pairBranch, Node.inline, Branch.pair, ih]

theorem assemble_items (col : Nat) {ns : List Node} (hne : ns ≠ []) :
    assemble (ns.map (itemBranch col)) = some (.seq ns) := by
  have hitems := mapM_item col ns
  cases ns with
  | nil => exact absurd rfl hne
  | cons n ns =>
      rw [List.map_cons] at hitems ⊢
      show Option.map Node.seq _ = _
      rw [show itemBranch col n = ⟨col, .dash, some n⟩ from rfl] at hitems
      rw [hitems]
      rfl

theorem assemble_pairs (col : Nat) {es : List (GoString × Node)} (hne : es ≠ [])
    (hnodup : (es.map Prod.fst).Nodup) :
    assemble (es.map (pairBranch col)) = some (.map es) := by
  have hpairs := mapM_pair col es
  cases es with
  | nil => exact absurd rfl hne
  | cons e es =>
      rw [List.map_cons, show pairBranch col e = ⟨col, .key e.1 e.2.inline, _⟩
        from rfl] at hpairs ⊢
      simp only [assemble, hpairs]
      exact if_pos hnodup

theorem branches_cons {col : Nat} {e : Entry} {below next : Forest} {n : Node}
    (h : below.node = some n) :
    (Forest.cons col e below next).branches =
      next.branches.map (⟨col, e, some n⟩ :: ·) := by
  obtain ⟨bs, hbs, hn⟩ := Option.bind_eq_some_iff.mp h
  have hne : bs ≠ [] := by
    rintro rfl
    cases hn
  cases hnext : next.branches <;> simp [Forest.branches, hbs, hn, hne, hnext]

theorem branches_leaf {col : Nat} {e : Entry} {next : Forest} :
    (Forest.cons col e .nil next).branches =
      next.branches.map (⟨col, e, none⟩ :: ·) := by
  cases hnext : next.branches <;> simp [Forest.branches, hnext]

theorem branches_items (col : Nat) {ns : List Node}
    (h : ∀ n ∈ ns, ∀ c, (n.forest c).node = some n) :
    (itemsForest col ns).branches = some (ns.map (itemBranch col)) := by
  induction ns with
  | nil => rfl
  | cons n ns ih =>
      rw [List.forall_mem_cons] at h
      rw [itemsForest, branches_cons (h.1 (col + 2)), ih h.2]
      rfl

theorem branches_pairs (col : Nat) {es : List (GoString × Node)}
    (h : ∀ e ∈ es, ∀ c, (e.2.forest c).node = some e.2) :
    (pairsForest col es).branches = some (es.map (pairBranch col)) := by
  induction es with
  | nil => rfl
  | cons e es ih =>
      obtain ⟨k, n⟩ := e
      rw [List.forall_mem_cons] at h
      rw [pairsForest, List.map_cons, pairBranch]
      split
      · next hinline =>
        rw [branches_leaf, ih h.2]
        rfl
      · next hinline =>
        rw [branches_cons (h.1 (col + 2)), ih h.2]
        rfl

/-- **A node in block style** is read back. -/
theorem node_forest {n : Node} (h : n.Wf quote) :
    ∀ col, (n.forest col).node = some n := by
  induction h with
  | value _ => exact fun _ => rfl
  | seq hne _ ih =>
      intro col
      rw [Node.forest, Forest.node, branches_items col ih]
      exact assemble_items col hne
  | map hne _ hnodup _ ih =>
      intro col
      rw [Node.forest, Forest.node, branches_pairs col ih]
      exact assemble_pairs col hne hnodup

theorem Chained.append {es es' : List (Nat × Entry)} (h : Chained es)
    (h' : Chained es') : Chained (es ++ es') := by
  induction es with
  | nil => exact h'
  | cons x es ih =>
      obtain ⟨hdash, hrest⟩ := h
      refine ⟨fun he => ?_, ih hrest⟩
      obtain ⟨e', rest, rfl⟩ := hdash he
      exact ⟨e', rest ++ es', rfl⟩

/-- A forest whose entries can be written one below the other. -/
structure Writable (quote : GoString → GoString) (col : Nat) (f : Forest) :
    Prop where
  at_col : f.At col
  chained : Chained f.entries
  wf : ∀ x ∈ f.entries, Entry.Wf quote x.2

theorem Writable.nil (col : Nat) : Writable quote col .nil :=
  ⟨trivial, trivial, by simp [Forest.entries]⟩

theorem Writable.cons {col c : Nat} {e : Entry} {below next : Forest}
    (hc : col < c) (he : e.Wf quote)
    (hdash : e = .dash → ∃ e' rest, below.entries = (col + 2, e') :: rest)
    (hbelow : Writable quote c below) (hnext : Writable quote col next) :
    Writable quote col (.cons col e below next) := by
  refine ⟨⟨rfl, ⟨c, hc, hbelow.at_col⟩, hnext.at_col⟩, ⟨fun h => ?_,
    hbelow.chained.append hnext.chained⟩, ?_⟩
  · obtain ⟨e', rest, hrest⟩ := hdash h
    exact ⟨e', rest ++ next.entries, by rw [hrest]; rfl⟩
  · rw [Forest.entries, List.forall_mem_cons, List.forall_mem_append]
    exact ⟨he, hbelow.wf, hnext.wf⟩

/-- A node begins in its column. -/
theorem forest_begins {n : Node} (h : n.Wf quote) (col : Nat) :
    ∃ e rest, (n.forest col).entries = (col, e) :: rest := by
  cases h with
  | value _ => exact ⟨_, _, rfl⟩
  | @seq items hne _ =>
      cases items with
      | nil => exact absurd rfl hne
      | cons n ns => exact ⟨_, _, rfl⟩
  | @map entries hne _ _ _ =>
      cases entries with
      | nil => exact absurd rfl hne
      | cons e es => exact ⟨_, _, rfl⟩

theorem writable_items {ns : List Node} (hwf : ∀ n ∈ ns, Node.Wf quote n)
    (h : ∀ n ∈ ns, ∀ c, Writable quote c (n.forest c)) (col : Nat) :
    Writable quote col (itemsForest col ns) := by
  induction ns with
  | nil => exact .nil col
  | cons n ns ih =>
      rw [List.forall_mem_cons] at hwf h
      exact .cons (by omega) trivial (fun _ => forest_begins hwf.1 (col + 2))
        (h.1 (col + 2)) (ih hwf.2 h.2)

theorem writable_pairs {es : List (GoString × Node)}
    (hkeys : ∀ e ∈ es, IsKey e.1) (hwf : ∀ e ∈ es, Node.Wf quote e.2)
    (h : ∀ e ∈ es, ∀ c, Writable quote c (e.2.forest c)) (col : Nat) :
    Writable quote col (pairsForest col es) := by
  induction es with
  | nil => exact .nil col
  | cons e es ih =>
      obtain ⟨k, n⟩ := e
      rw [List.forall_mem_cons] at hkeys hwf h
      have hrest := ih hkeys.2 hwf.2 h.2
      have hnodash : ∀ v, Entry.key k v = .dash → ∃ e' rest,
          (if n.inline.isSome then Forest.nil
            else n.forest (col + 2)).entries = (col + 2, e') :: rest := by
        rintro _ ⟨⟩
      rw [pairsForest]
      refine .cons (c := col + 2) (by omega) ?_ (hnodash _) ?_ hrest
      · cases hwf.1 with
        | value hv => exact ⟨hkeys.1, hv⟩
        | seq => exact hkeys.1
        | map => exact hkeys.1
      · split
        · exact .nil _
        · exact h.1 (col + 2)

theorem writable_node {n : Node} (h : n.Wf quote) :
    ∀ col, Writable quote col (n.forest col) := by
  induction h with
  | value hv =>
      intro col
      exact .cons (Nat.lt_succ_self col) hv (by rintro ⟨⟩) (.nil _) (.nil col)
  | seq _ hwf ih => exact writable_items hwf ih
  | map _ hkeys _ hwf ih => exact writable_pairs hkeys hwf ih

/-- A node as a text in block style, from the column `col` on. -/
def Node.print (quote : GoString → GoString) (col : Nat) (n : Node) : GoString :=
  write quote true (n.forest col).entries

/-- **A document in block style** is read back. -/
theorem load_print {n : Node} (h : n.Wf quote) (col : Nat) :
    load (n.print quote col) = some n := by
  have hwritable := writable_node h col
  obtain ⟨hread, hvalid⟩ := readText_write _ _ (Nat.le_refl _)
    hwritable.chained hwritable.wf
  rw [Node.print, load, if_pos hvalid, hread, Option.bind_some,
    Forest.ofEntries_entries hwritable.at_col]
  exact node_forest h col

/-! ## The lines of a node -/

/-- Entries in front of others; they do not end in a dash. -/
theorem write_append {es es' : List (Nat × Entry)} (h : Chained es) :
    ∀ start, (start = false → es ≠ []) →
      write quote start (es ++ es') =
        write quote start es ++ write quote true es' := by
  induction es with
  | nil =>
      intro start hstart
      cases start with
      | false => exact absurd rfl (hstart rfl)
      | true => rfl
  | cons x es ih =>
      intro start _
      obtain ⟨hdash, hrest⟩ := h
      rw [List.cons_append, write, write]
      by_cases he : x.2 = .dash
      · obtain ⟨e', rest, hes⟩ := hdash he
        rw [if_pos he, if_pos he, ih hrest false fun _ => by simp [hes]]
        simp only [List.append_assoc]
      · rw [if_neg he, if_neg he, ih hrest true (by simp)]
        simp only [List.append_assoc, List.cons_append]

@[simp] theorem print_map_nil (col : Nat) : (Node.map []).print quote col = [] :=
  rfl

@[simp] theorem print_seq_nil (col : Nat) : (Node.seq []).print quote col = [] :=
  rfl

/-- A value stands behind its key. -/
theorem print_value (col : Nat) (k : GoString) (v : Value)
    (es : List (GoString × Node)) :
    (Node.map ((k, .value v) :: es)).print quote col =
      List.replicate col 0x20 ++ (k ++ lit ": " ++ v.write quote ++
        0x0A :: (Node.map es).print quote col) := by
  simp [Node.print, Node.forest, pairsForest, Node.inline, Forest.entries, write,
    Entry.write]

/-- A sequence and a mapping stand below their key. -/
theorem print_block (col : Nat) (k : GoString) {n : Node}
    (hinline : n.inline = none) (hwf : n.Wf quote) (es : List (GoString × Node)) :
    (Node.map ((k, n) :: es)).print quote col =
      List.replicate col 0x20 ++ (k ++ lit ":" ++ 0x0A ::
        (n.print quote (col + 2) ++ (Node.map es).print quote col)) := by
  have happend : write quote true
      ((n.forest (col + 2)).entries ++ (pairsForest col es).entries) = _ :=
    write_append (writable_node hwf (col + 2)).chained true (by simp)
  simp [Node.print, Node.forest, pairsForest, hinline, Forest.entries, write,
    Entry.write, happend]

/-- An item that is a mapping begins behind the dash. -/
theorem print_item (col : Nat) {k : GoString} {v : Value}
    {es : List (GoString × Node)} (hwf : (Node.map ((k, .value v) :: es)).Wf quote)
    (ns : List Node) :
    (Node.seq (.map ((k, .value v) :: es) :: ns)).print quote col =
      List.replicate col 0x20 ++ (lit "- " ++ (k ++ lit ": " ++ v.write quote ++
        0x0A :: ((Node.map es).print quote (col + 2) ++
          (Node.seq ns).print quote col))) := by
  have hchained := (writable_node hwf (col + 2)).chained
  simp only [Node.forest, pairsForest, Node.inline, Option.isSome_some, if_true,
    Forest.entries, List.nil_append] at hchained
  have happend : write quote true
      ((pairsForest (col + 2) es).entries ++ (itemsForest col ns).entries) = _ :=
    write_append hchained.2 true (by simp)
  simp [Node.print, Node.forest, itemsForest, pairsForest, Node.inline,
    Forest.entries, write, Entry.write, happend]

/-! ## Fields that may be left out -/

theorem wf_text {s : GoString} (hs : Quotes quote s) :
    ∀ n ∈ givenText s, n.Wf quote := by
  intro n hn
  unfold givenText at hn
  split at hn
  · cases hn
  · cases hn
    exact .value hs

theorem wf_flag (b : Bool) : ∀ n ∈ givenFlag b, n.Wf quote := by
  intro n hn
  cases b with
  | false => cases hn
  | true =>
      cases hn
      have hword : IsWord "true" := by decide +kernel
      exact .value hword

theorem wf_list {α : Type} {node : α → Node} {xs : List α}
    (h : ∀ x ∈ xs, (node x).Wf quote) : ∀ n ∈ givenList node xs, n.Wf quote := by
  intro n hn
  unfold givenList at hn
  split at hn
  · cases hn
  · next hne =>
    cases hn
    exact .seq (by simpa using hne) (List.forall_mem_map.mpr h)

/-- A mapping is written if one of its fields is present. -/
theorem wf_present {fs : List (GoString × Option Node)}
    (hkeys : Keys (fs.map Prod.fst)) (hne : present fs ≠ [])
    (h : ∀ f ∈ fs, ∀ n ∈ f.2, n.Wf quote) : (Node.map (present fs)).Wf quote := by
  refine .map hne (fun e he => ?_) (nodup_present hkeys.1) fun e he => ?_
  · exact hkeys.2 _ (mem_keys_present (List.mem_map_of_mem he))
  · obtain ⟨f, hf, hsome⟩ := List.mem_filterMap.mp he
    obtain ⟨n, hn, rfl⟩ := Option.map_eq_some_iff.mp hsome
    exact h f hf n hn

end Nodes

end Hdns.Verified.Yaml

import Hdns.Verified.GoIP
import Hdns.Verified.GoPath
import Hdns.Verified.Effect

/-!
# Escaping for URLs

`escape` and `unescape` of `net/url`.  Which bytes are escaped depends on the
part of the URL a text is escaped for.  Escaping never writes a byte that would
have to be escaped, so it can be undone, and it writes a slash only where there
was one, so a path keeps its elements.

## Main results

* `unescape_escape` — unescaping undoes escaping.
* `escape_eq_self_iff` — the texts that are escaped to themselves.
* `elements_escape_path` — the elements of an escaped path.
* `elements_of_unescape` — the elements of an unescaped path, if no slash was
  escaped.
-/

namespace Hdns.Verified.GoEscape

open Hdns.Verified.GoString
open Hdns.Verified.GoPath (slash elements)
open Hdns.Verified.GoIP (isHex isDigit hexDigit percent)

/-! ## Which bytes are escaped -/

/-- `encoding`: the part of a URL that a text is escaped for. -/
inductive Mode where
  | path
  | pathSegment
  | host
  | zone
  | userPassword
  | queryComponent
  | fragment
  deriving DecidableEq, Repr

/-- The modes of a host. -/
def Mode.ofHost (mode : Mode) : Bool := mode = .host ∨ mode = .zone

def isAlphanumeric (c : UInt8) : Bool :=
  isDigit c || (0x41 ≤ c && c ≤ 0x5A) || (0x61 ≤ c && c ≤ 0x7A)

/-- What stands for itself in a host: `!$&'()*+,;=:[]<>"`. -/
def hostBytes : GoString :=
  [0x21, 0x24, 0x26, 0x27, 0x28, 0x29, 0x2A, 0x2B, 0x2C, 0x3B, 0x3D, 0x3A, 0x5B,
    0x5D, 0x3C, 0x3E, 0x22]

/-- `$&+,/:;=?@`. -/
def reserved : GoString :=
  [0x24, 0x26, 0x2B, 0x2C, slash, 0x3A, 0x3B, 0x3D, 0x3F, 0x40]

/-- The reserved bytes that are escaped. -/
def reservedEscaped : Mode → GoString
  | .path => [0x3F]
  | .pathSegment => [slash, 0x3B, 0x2C, 0x3F]
  | .userPassword => [0x40, slash, 0x3F, 0x3A]
  | .fragment => []
  | .host | .zone | .queryComponent => reserved

/-- `shouldEscape`. -/
def shouldEscape (c : UInt8) (mode : Mode) : Bool :=
  if isAlphanumeric c then false
  else if mode.ofHost ∧ c ∈ hostBytes then false
  -- `-_.~`
  else if c ∈ [0x2D, 0x5F, 0x2E, 0x7E] then false
  else if c ∈ reserved then c ∈ reservedEscaped mode
  -- `!()*`
  else if mode = .fragment ∧ c ∈ [0x21, 0x28, 0x29, 0x2A] then false
  else true

/-! ## Escaping -/

/-- The digit `upperhex[v]`. -/
def upperhex (v : Nat) : UInt8 :=
  if v < 10 then UInt8.ofNat (0x30 + v) else UInt8.ofNat (0x41 + (v - 10))

/-- What `escape` writes for a byte. -/
def escapeByte (mode : Mode) (c : UInt8) : GoString :=
  if shouldEscape c mode then
    if c = 0x20 ∧ mode = .queryComponent then [0x2B]
    else [percent, upperhex (c.toNat / 16), upperhex (c.toNat % 16)]
  else [c]

/-- `escape`. -/
def escape (mode : Mode) (s : GoString) : GoString := s.flatMap (escapeByte mode)

/-- `PathEscape`. -/
def pathEscape (s : GoString) : GoString := escape .pathSegment s

/-- `QueryEscape`. -/
def queryEscape (s : GoString) : GoString := escape .queryComponent s

example : pathEscape (lit "a b/c%d") = lit "a%20b%2Fc%25d" := by decide +kernel

/-! ## Unescaping -/

/-- The errors of parsing a URL, without the operation and the URL in front. -/
inductive Error where
  /-- `EscapeError`: `invalid URL escape %q`. -/
  | escape (text : GoString)
  /-- `InvalidHostError`: `invalid character %q in host name`. -/
  | hostCharacter (text : GoString)
  /-- `invalid port %q after host`. -/
  | port (text : GoString)
  /-- `invalid host: %w`, the error being that of `netip.ParseAddr`. -/
  | address (text : GoString)
  /-- An error that names no part of the URL. -/
  | message (text : GoString)
  deriving DecidableEq, Repr

/-- The byte that two hex digits stand for. -/
def unhex (h l : UInt8) : UInt8 := UInt8.ofNat (hexDigit h * 16 + hexDigit l)

/-- An escape that is not allowed in the part: in a host only bytes outside
ASCII and the percent sign are, in a zone also what can be written there and
the space. -/
def refused (mode : Mode) (h l : UInt8) : Bool :=
  if h = 0x32 ∧ l = 0x35 then false
  else match mode with
    | .host => hexDigit h < 8
    | .zone => unhex h l ≠ 0x20 ∧ shouldEscape (unhex h l) .host
    | _ => false

/-- `unescape`. -/
def unescape (mode : Mode) : GoString → Except Error GoString
  | [] => .ok []
  | c :: rest =>
      if c = percent then
        match rest with
        | h :: l :: rest =>
            if isHex h ∧ isHex l ∧ ¬refused mode h l then
              (unescape mode rest).map (unhex h l :: ·)
            else .error (.escape [c, h, l])
        | rest => .error (.escape (c :: rest))
      else if mode.ofHost ∧ c < 0x80 ∧ shouldEscape c mode then
        .error (.hostCharacter [c])
      else
        let b := if c = 0x2B ∧ mode = .queryComponent then 0x20 else c
        (unescape mode rest).map (b :: ·)

/-- `PathUnescape`. -/
def pathUnescape (s : GoString) : Except Error GoString :=
  unescape .pathSegment s

/-- `QueryUnescape`. -/
def queryUnescape (s : GoString) : Except Error GoString :=
  unescape .queryComponent s

/-! ## Undoing an escape -/

theorem isHex_upperhex : ∀ v < 16, isHex (upperhex v) = true := by decide

theorem hexDigit_upperhex : ∀ v < 16, hexDigit (upperhex v) = v := by decide

/-- The percent sign is escaped everywhere. -/
theorem shouldEscape_percent (mode : Mode) : shouldEscape percent mode = true := by
  cases mode <;> decide +kernel

theorem unhex_upperhex (c : UInt8) :
    unhex (upperhex (c.toNat / 16)) (upperhex (c.toNat % 16)) = c := by
  have hlt := c.toNat_lt
  rw [unhex, hexDigit_upperhex _ (by omega), hexDigit_upperhex _ (by omega),
    show c.toNat / 16 * 16 + c.toNat % 16 = c.toNat by omega,
    UInt8.ofNat_toNat]

@[simp] theorem escape_nil (mode : Mode) : escape mode [] = [] := rfl

theorem escape_cons (mode : Mode) (c : UInt8) (s : GoString) :
    escape mode (c :: s) = escapeByte mode c ++ escape mode s := rfl

/-- A byte that begins no escape. -/
theorem unescape_cons_of_ne (mode : Mode) {c : UInt8} (hc : c ≠ percent)
    (rest : GoString) :
    unescape mode (c :: rest) =
      if mode.ofHost ∧ c < 0x80 ∧ shouldEscape c mode then
        .error (.hostCharacter [c])
      else (unescape mode rest).map
        ((if c = 0x2B ∧ mode = .queryComponent then 0x20 else c) :: ·) := by
  rw [unescape.eq_def]
  simp only [if_neg hc]

/-- A byte that stands for itself. -/
theorem unescape_cons_plain {mode : Mode} {c : UInt8} (hc : c ≠ percent)
    (hmode : mode.ofHost = false) (hplus : ¬(c = 0x2B ∧ mode = .queryComponent))
    (rest : GoString) :
    unescape mode (c :: rest) = (unescape mode rest).map (c :: ·) := by
  have hhost : ¬(mode.ofHost ∧ c < 0x80 ∧ shouldEscape c mode) := by
    simp [hmode]
  rw [unescape_cons_of_ne mode hc, if_neg hhost, if_neg hplus]

/-- The byte that `escape` writes for a text of one byte is read back. -/
structure Undoes (mode mode' : Mode) (c : UInt8) : Prop where
  /-- An escape is one, and not refused. -/
  escaped : shouldEscape c mode = true → ¬(c = 0x20 ∧ mode = .queryComponent) ∧
    refused mode' (upperhex (c.toNat / 16)) (upperhex (c.toNat % 16)) = false
  /-- A byte that stands for itself may stand there. -/
  plain : shouldEscape c mode = false →
    ¬(mode'.ofHost ∧ c < 0x80 ∧ shouldEscape c mode') ∧
      ¬(c = 0x2B ∧ mode' = .queryComponent)

/-- Unescaping undoes escaping byte by byte. -/
theorem unescape_escape_append {mode mode' : Mode} {s : GoString}
    (h : ∀ c ∈ s, Undoes mode mode' c) (t : GoString) :
    unescape mode' (escape mode s ++ t) =
      (unescape mode' t).map (s ++ ·) := by
  induction s with
  | nil =>
      show unescape mode' t = (unescape mode' t).map id
      cases unescape mode' t <;> rfl
  | cons c s ih =>
      have hrest := ih fun c' hc' => h c' (List.mem_cons_of_mem c hc')
      have hc := h c List.mem_cons_self
      have hmap : ((unescape mode' t).map (s ++ ·)).map (c :: ·) =
          (unescape mode' t).map (c :: s ++ ·) := by
        cases unescape mode' t <;> rfl
      rw [escape_cons, List.append_assoc, ← hmap, ← hrest]
      have hlt := c.toNat_lt
      by_cases hesc : shouldEscape c mode = true
      · obtain ⟨hspace, hallowed⟩ := hc.escaped hesc
        rw [escapeByte, if_pos hesc, if_neg hspace]
        simp only [List.cons_append, List.nil_append, unescape, if_true,
          isHex_upperhex _ (show c.toNat / 16 < 16 by omega),
          isHex_upperhex _ (show c.toNat % 16 < 16 by omega), hallowed,
          unhex_upperhex]
        rfl
      · have hplain := hc.plain (Bool.eq_false_iff.mpr hesc)
        have hne : c ≠ percent := by
          rintro rfl
          exact hesc (shouldEscape_percent mode)
        rw [escapeByte, if_neg hesc, List.singleton_append,
          unescape_cons_of_ne mode' hne, if_neg hplain.1, if_neg hplain.2]

/-- The modes in which every escape may stand. -/
theorem undoes_of_mode {mode mode' : Mode} (hmode : mode ≠ .queryComponent)
    (hmode' : mode'.ofHost = false) (hquery : mode' ≠ .queryComponent)
    (c : UInt8) : Undoes mode mode' c := by
  constructor
  · intro _
    refine ⟨fun h => hmode h.2, ?_⟩
    unfold refused
    split
    · rfl
    · cases mode' <;> first | rfl | cases hmode'
  · intro _
    refine ⟨fun h => ?_, fun h => hquery h.2⟩
    rw [hmode'] at h
    cases h.1

/-- **Unescaping undoes escaping**, for the parts outside the host. -/
theorem unescape_escape {mode mode' : Mode} (hmode : mode ≠ .queryComponent)
    (hmode' : mode'.ofHost = false) (hquery : mode' ≠ .queryComponent)
    (s : GoString) : unescape mode' (escape mode s) = .ok s := by
  have h := unescape_escape_append (s := s)
    (fun c _ => undoes_of_mode hmode hmode' hquery c) []
  rw [List.append_nil] at h
  rw [h]
  exact congrArg Except.ok (List.append_nil s)

/-! ## What escaping leaves as it is -/

theorem upperhex_unescaped (mode : Mode) :
    ∀ v < 16, shouldEscape (upperhex v) mode = false := by
  cases mode <;> decide +kernel

/-- The bytes `escape` writes: the percent sign, the plus sign for a space, and
otherwise none that has to be escaped. -/
theorem mem_escape {mode : Mode} {s : GoString} {x : UInt8}
    (h : x ∈ escape mode s) (hx : shouldEscape x mode = true) :
    x = percent ∨ x = 0x2B := by
  obtain ⟨c, hc, hmem⟩ := List.mem_flatMap.mp h
  have hlt := c.toNat_lt
  unfold escapeByte at hmem
  split at hmem
  · split at hmem
    · exact .inr (List.mem_singleton.mp hmem)
    · simp only [List.mem_cons, List.not_mem_nil, or_false] at hmem
      rcases hmem with rfl | rfl | rfl
      · exact .inl rfl
      · rw [upperhex_unescaped mode _ (by omega)] at hx
        cases hx
      · rw [upperhex_unescaped mode _ (by omega)] at hx
        cases hx
  · next hplain =>
      rw [List.mem_singleton.mp hmem] at hx
      exact absurd hx hplain

/-- A byte that has to be escaped is not written. -/
theorem not_mem_escape {mode : Mode} {x : UInt8}
    (hx : shouldEscape x mode = true) (hpercent : x ≠ percent)
    (hplus : x ≠ 0x2B) (s : GoString) : x ∉ escape mode s := by
  intro h
  rcases mem_escape h hx with rfl | rfl
  · exact hpercent rfl
  · exact hplus rfl

theorem length_le_escape (mode : Mode) (s : GoString) :
    s.length ≤ (escape mode s).length := by
  induction s with
  | nil => exact Nat.le_refl 0
  | cons c s ih =>
      have hbyte : 1 ≤ (escapeByte mode c).length := by
        unfold escapeByte
        split_ifs <;> simp
      rw [escape_cons, List.length_append, List.length_cons]
      omega

/-- **The texts that are escaped to themselves** have nothing to escape. -/
theorem escape_eq_self_iff {mode : Mode} (hmode : mode ≠ .queryComponent)
    {s : GoString} :
    escape mode s = s ↔ ∀ c ∈ s, shouldEscape c mode = false := by
  induction s with
  | nil => simp
  | cons c s ih =>
      rw [escape_cons, List.forall_mem_cons, ← ih, escapeByte]
      cases hesc : shouldEscape c mode with
      | false => simp
      | true =>
          rw [if_pos rfl, if_neg fun h => hmode h.2]
          simp only [Bool.true_eq_false, false_and, iff_false]
          intro h
          have hlen := congrArg List.length h
          have hle := length_le_escape mode s
          simp only [List.cons_append, List.nil_append, List.length_cons]
            at hlen
          omega

/-! ## Paths -/

/-- The elements of a path, from its first byte. -/
theorem elements_cons (c : UInt8) (s : GoString) :
    elements (c :: s) =
      if c = slash then [] :: elements s
      else (elements s).modifyHead (c :: ·) := by
  rw [elements, List.splitOn_cons_eq_if_modifyHead]
  by_cases hc : c = slash
  · rw [if_pos (by simp [hc]), if_pos hc, elements]
  · rw [if_neg (by simpa using hc), if_neg hc, elements]

/-- Bytes that are no slash go to the first element. -/
theorem elements_append_of_not_mem {s : GoString} (hs : slash ∉ s)
    (t : GoString) : elements (s ++ t) = (elements t).modifyHead (s ++ ·) := by
  induction s with
  | nil =>
      show elements t = (elements t).modifyHead id
      rw [List.modifyHead_id]
      rfl
  | cons c s ih =>
      rw [List.mem_cons, not_or] at hs
      rw [List.cons_append, elements_cons, if_neg (Ne.symm hs.1), ih hs.2,
        List.modifyHead_modifyHead]
      rfl

/-- **An escaped path** has the elements of the path, escaped. -/
theorem elements_escape_path (s : GoString) :
    elements (escape .path s) = (elements s).map (escape .path) := by
  induction s with
  | nil => rfl
  | cons c s ih =>
      rw [escape_cons, elements_cons]
      by_cases hc : c = slash
      · rw [if_pos hc, hc, List.map_cons, ← ih,
          show escapeByte .path slash = [slash] by decide +kernel]
        exact elements_cons slash _
      · have hbytes : slash ∉ escapeByte .path c := by
          have hall : ∀ c : UInt8, c ≠ slash → slash ∉ escapeByte .path c := by
            apply forall_byte
            decide +kernel
          exact hall c hc
        rw [if_neg hc, elements_append_of_not_mem hbytes, ih]
        cases elements s with
        | nil => rfl
        | cons e es => rfl

private theorem map_eq_ok {ε α β : Type} {f : α → β} {x : Except ε α} {b : β} :
    x.map f = .ok b ↔ ∃ a, x = .ok a ∧ f a = b := by
  cases x with
  | error err => exact ⟨nofun, nofun⟩
  | ok a => simp [Except.map]

/-- An escape that is none. -/
theorem unescape_percent_error {mode : Mode} {rest p : GoString}
    (h : unescape mode (percent :: rest) = .ok p) :
    ∃ x y rest', rest = x :: y :: rest' ∧ isHex x = true ∧ isHex y = true := by
  match rest, h with
  | [], h => cases h
  | [_], h => cases h
  | x :: y :: rest', h =>
      rw [unescape, if_pos rfl] at h
      by_cases hhex : isHex x ∧ isHex y ∧ ¬refused mode x y
      · exact ⟨x, y, rest', rfl, hhex.1, hhex.2.1⟩
      · rw [if_neg hhex] at h
        cases h

/-- **A text is unescaped on both sides of a slash**: no escape goes across. -/
theorem unescape_append_slash {mode : Mode} (hmode : mode.ofHost = false)
    (a b p : GoString) :
    unescape mode (a ++ slash :: b) = .ok p ↔
      ∃ da db, unescape mode a = .ok da ∧ unescape mode b = .ok db ∧
        da ++ slash :: db = p := by
  induction a using unescape.induct mode generalizing p with
  | case1 =>
      rw [List.nil_append, unescape_cons_plain (by decide) hmode
        fun h => absurd h.1 (by decide), map_eq_ok]
      simp [unescape]
  | case2 h l rest hhex ih =>
      simp only [List.cons_append, unescape, if_true, if_pos hhex, map_eq_ok, ih]
      constructor
      · rintro ⟨_, ⟨da, db, ha, hb, rfl⟩, rfl⟩
        exact ⟨_, db, ⟨da, ha, rfl⟩, hb, rfl⟩
      · rintro ⟨_, db, ⟨da, ha, rfl⟩, hb, rfl⟩
        exact ⟨_, ⟨da, db, ha, hb, rfl⟩, rfl⟩
  | case3 h l rest hhex =>
      simp only [List.cons_append, unescape, if_true, if_neg hhex]
      exact ⟨nofun, nofun⟩
  | case4 rest hshort =>
      refine iff_of_false (fun h => ?_) ?_
      · obtain ⟨x, y, rest', heq, hx, hy⟩ := unescape_percent_error h
        match rest, hshort, heq with
        | [], _, heq =>
            rw [← (List.cons.inj heq).1] at hx
            cases hx
        | [z], _, heq =>
            rw [← (List.cons.inj (List.cons.inj heq).2).1] at hy
            cases hy
        | z :: w :: rest, hshort, _ => exact hshort z w rest rfl
      · rintro ⟨da, db, ha, -⟩
        obtain ⟨x, y, rest', heq, -⟩ := unescape_percent_error ha
        exact hshort x y rest' heq
  | case5 c rest hc hhost =>
      rw [hmode] at hhost
      cases hhost.1
  | case6 c rest hc hhost ih =>
      rw [List.cons_append, unescape_cons_of_ne mode hc,
        unescape_cons_of_ne mode hc, if_neg hhost, if_neg hhost]
      simp only [map_eq_ok, ih]
      constructor
      · rintro ⟨_, ⟨da, db, ha, hb, rfl⟩, rfl⟩
        exact ⟨_, db, ⟨da, ha, rfl⟩, hb, rfl⟩
      · rintro ⟨_, db, ⟨da, ha, rfl⟩, hb, rfl⟩
        exact ⟨_, ⟨da, db, ha, hb, rfl⟩, rfl⟩

/-- Outside the host, only the query is unescaped in its own way. -/
theorem unescape_path (s : GoString) : unescape .path s = pathUnescape s := by
  unfold pathUnescape
  induction s using unescape.induct .path with
  | case1 => rfl
  | case2 h l rest hhex ih =>
      have hhex' : isHex h ∧ isHex l ∧ ¬refused .pathSegment h l := hhex
      simp only [unescape, if_true, if_pos hhex, if_pos hhex', ih]
  | case3 h l rest hhex =>
      have hhex' : ¬(isHex h ∧ isHex l ∧ ¬refused .pathSegment h l) := hhex
      simp only [unescape, if_true, if_neg hhex, if_neg hhex']
  | case4 rest hshort =>
      rw [unescape.eq_def, unescape.eq_def .pathSegment]
      simp only [if_true]
  | case5 c rest hc hhost => cases hhost.1
  | case6 c rest hc hhost ih =>
      rw [unescape_cons_plain hc rfl (by simp),
        unescape_cons_plain hc rfl (by simp), ih]

/-- The elements of a path, each unescaped, as a server reads it. -/
def unescapedElements (s : GoString) : Except Error (List GoString) :=
  (elements s).mapM pathUnescape

theorem join_cons_cons (e e' : GoString) (es : List GoString) :
    GoString.join (e :: e' :: es) [slash] =
      e ++ slash :: GoString.join (e' :: es) [slash] := by
  simp [GoString.join]

theorem join_snoc (es : List GoString) (hne : es ≠ []) (e : GoString) :
    GoString.join (es ++ [e]) [slash] =
      GoString.join es [slash] ++ slash :: e := by
  induction es with
  | nil => exact absurd rfl hne
  | cons e' es ih =>
      cases es with
      | nil => simp [GoString.join]
      | cons e'' es =>
          have hrest := ih (List.cons_ne_nil _ _)
          rw [List.cons_append] at hrest ⊢
          rw [List.cons_append, join_cons_cons, join_cons_cons, hrest]
          simp

/-- **The elements of a path that is unescaped**, joined again. -/
theorem unescape_join (es : List GoString) (hne : es ≠ []) (p : GoString) :
    unescape .path (GoString.join es [slash]) = .ok p ↔
      ∃ ds, es.mapM pathUnescape = .ok ds ∧ GoString.join ds [slash] = p := by
  induction es generalizing p with
  | nil => exact absurd rfl hne
  | cons e es ih =>
      cases es with
      | nil =>
          simp only [Prog.except_mapM_eq_ok, List.forall₂_cons_left_iff,
            List.forall₂_nil_left_iff, GoString.join, List.intersperse_singleton,
            List.flatten_cons, List.flatten_nil, List.append_nil, unescape_path]
          constructor
          · exact fun h => ⟨[p], ⟨p, [], h, rfl, rfl⟩, by simp⟩
          · rintro ⟨ds, ⟨d, _, hd, rfl, rfl⟩, rfl⟩
            simpa using hd
      | cons e' es =>
          rw [join_cons_cons, unescape_append_slash rfl]
          simp only [ih (List.cons_ne_nil _ _)]
          simp only [unescape_path, Prog.except_mapM_eq_ok]
          constructor
          · rintro ⟨d, db, hd, ⟨ds, hds, rfl⟩, rfl⟩
            refine ⟨d :: ds, .cons hd hds, ?_⟩
            cases hds with
            | cons hd' hds' => exact join_cons_cons _ _ _
          · rintro ⟨ds, hds, rfl⟩
            cases hds with
            | cons hd hds' =>
                refine ⟨_, _, hd, ⟨_, hds', rfl⟩, ?_⟩
                cases hds' with
                | cons hd' hds'' => exact (join_cons_cons _ _ _).symm

theorem join_elements (s : GoString) :
    GoString.join (elements s) [slash] = s :=
  List.intercalate_splitOn slash

/-- What a server reads, for a path that can be unescaped. -/
theorem unescapedElements_of_unescape {s p : GoString}
    (h : unescape .path s = .ok p) :
    ∃ ds, unescapedElements s = .ok ds ∧ GoString.join ds [slash] = p ∧
      ds ≠ [] := by
  rw [← join_elements s] at h
  obtain ⟨ds, hds, hjoin⟩ :=
    (unescape_join _ (List.splitOn_ne_nil _ _) p).mp h
  refine ⟨ds, hds, hjoin, ?_⟩
  rintro rfl
  rw [Prog.except_mapM_eq_ok, List.forall₂_nil_right_iff] at hds
  exact List.splitOn_ne_nil _ _ hds

/-- **What a server reads of an escaped path** are its elements. -/
theorem unescapedElements_escape (s : GoString) :
    unescapedElements (escape .path s) = .ok (elements s) := by
  have hback : ∀ e, pathUnescape (escape .path e) = .ok e :=
    unescape_escape (by decide) rfl (by decide)
  rw [unescapedElements, elements_escape_path, Prog.except_mapM_eq_ok]
  induction elements s with
  | nil => exact .nil
  | cons e es ih => exact .cons (hback e) ih

end Hdns.Verified.GoEscape

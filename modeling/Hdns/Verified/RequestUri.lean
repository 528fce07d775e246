import Hdns.Verified.GoUrl

/-!
# Queries from a page to a server

A page writes the parameters of a request with `encodeURIComponent`; the server
reads the target of the request with `url.ParseRequestURI` and its parameters
with `Query`.  The two do not escape the same bytes, but what one writes the
other reads back.

## Main results

* `unescape_encodeURIComponent` — every text is read back.
* `query_written` — so is every list of parameters.
* `parseRequestURI_written` — the target of such a request.
-/

namespace Hdns.Verified.RequestUri

open Hdns.Verified.GoString
open Hdns.Verified.GoIP (isHex percent colon)
open Hdns.Verified.GoPath (slash)
open Hdns.Verified.GoEscape
open Hdns.Verified.GoUrl

/-! ## `encodeURIComponent` -/

/-- A byte that stands for itself: `-_.!~*'()` beside letters and digits. -/
def isUnreserved (b : UInt8) : Bool :=
  isAlphanumeric b ||
    b ∈ [0x2D, 0x5F, 0x2E, 0x21, 0x7E, 0x2A, 0x27, 0x28, 0x29]

/-- What is written for a byte of the UTF-8 encoding. -/
def encodeByte (b : UInt8) : GoString :=
  if isUnreserved b then [b]
  else [percent, upperhex (b.toNat / 16), upperhex (b.toNat % 16)]

/-- `encodeURIComponent`. -/
def encodeURIComponent (s : GoString) : GoString := s.flatMap encodeByte

example : encodeURIComponent (lit "a b+c") = lit "a%20b%2Bc" := by decide

theorem encodeURIComponent_of_unreserved {s : GoString}
    (h : ∀ b ∈ s, isUnreserved b = true) : encodeURIComponent s = s := by
  induction s with
  | nil => rfl
  | cons b s ih =>
      have hrest := ih fun c hc => h c (List.mem_cons_of_mem b hc)
      rw [encodeURIComponent] at hrest
      rw [encodeURIComponent, List.flatMap_cons, hrest, encodeByte,
        if_pos (h b List.mem_cons_self), List.singleton_append]

theorem isUnreserved_upperhex : ∀ v < 16, isUnreserved (upperhex v) = true := by
  decide

/-- The bytes that are written. -/
theorem mem_encodeURIComponent {s : GoString} {b : UInt8}
    (h : b ∈ encodeURIComponent s) : isUnreserved b = true ∨ b = percent := by
  obtain ⟨c, -, hmem⟩ := List.mem_flatMap.mp h
  have hlt := c.toNat_lt
  unfold encodeByte at hmem
  split at hmem
  · next hc =>
    rw [List.mem_singleton.mp hmem]
    exact .inl hc
  · simp only [List.mem_cons, List.not_mem_nil, or_false] at hmem
    rcases hmem with rfl | rfl | rfl
    · exact .inr rfl
    · exact .inl (isUnreserved_upperhex _ (by omega))
    · exact .inl (isUnreserved_upperhex _ (by omega))

/-- A byte that has a meaning in a query is not written. -/
theorem not_mem_encodeURIComponent {b : UInt8} (hb : isUnreserved b = false)
    (hpercent : b ≠ percent) (s : GoString) : b ∉ encodeURIComponent s := by
  intro h
  rcases mem_encodeURIComponent h with hplain | rfl
  · rw [hb] at hplain
    cases hplain
  · exact hpercent rfl

/-- **Every text is read back.** -/
theorem unescape_encodeURIComponent (s : GoString) :
    queryUnescape (encodeURIComponent s) = .ok s := by
  have hallowed : ∀ h l, refused .queryComponent h l = false := by
    intro h l
    unfold refused
    split <;> rfl
  induction s with
  | nil => rfl
  | cons b s ih =>
      rw [queryUnescape, encodeURIComponent] at ih
      rw [queryUnescape, encodeURIComponent, List.flatMap_cons]
      have hlt := b.toNat_lt
      cases hb : isUnreserved b with
      | true =>
          have hpercent : b ≠ percent := by
            rintro rfl
            cases hb
          have hplus : ¬(b = 0x2B ∧ Mode.queryComponent = .queryComponent) := by
            rintro ⟨rfl, -⟩
            cases hb
          rw [encodeByte, if_pos hb, List.singleton_append,
            unescape_cons_plain hpercent rfl hplus, ih]
          rfl
      | false =>
          rw [encodeByte, if_neg (Bool.eq_false_iff.mp hb)]
          simp only [List.cons_append, List.nil_append, unescape, if_true,
            isHex_upperhex _ (show b.toNat / 16 < 16 by omega),
            isHex_upperhex _ (show b.toNat % 16 < 16 by omega), hallowed,
            unhex_upperhex, ih]
          rfl

/-! ## Parameters -/

/-- A parameter as it is written. -/
def writtenPair (p : GoString × GoString) : GoString :=
  encodeURIComponent p.1 ++ 0x3D :: encodeURIComponent p.2

/-- Parameters as they are written. -/
def writtenQuery (v : Values) : GoString :=
  GoString.join (v.map writtenPair) [0x26]

/-- `Values.Get`. -/
def get (v : Values) (key : GoString) : GoString := (v.lookup key).getD []

theorem mem_writtenPair {p : GoString × GoString} {b : UInt8}
    (h : b ∈ writtenPair p) : isUnreserved b = true ∨ b = percent ∨ b = 0x3D := by
  rcases List.mem_append.mp h with h | h
  · exact (mem_encodeURIComponent h).imp_right .inl
  · rcases List.mem_cons.mp h with rfl | h
    · exact .inr (.inr rfl)
    · exact (mem_encodeURIComponent h).imp_right .inl

theorem parsePair_written (p : GoString × GoString) :
    parsePair (writtenPair p) = some p := by
  have hequals : (0x3D : UInt8) ∉ encodeURIComponent p.1 :=
    not_mem_encodeURIComponent (by decide) (by decide) _
  have hcut : cut 0x3D (writtenPair p) =
      (encodeURIComponent p.1, encodeURIComponent p.2) := by
    rw [writtenPair, cut_append hequals]
    simp [cut]
  have hsemicolon : (0x3B : UInt8) ∉ writtenPair p := by
    intro h
    have hbyte := mem_writtenPair h
    revert hbyte
    decide
  have hne : writtenPair p ≠ [] := by
    simp [writtenPair]
  simp [parsePair, hsemicolon, hne, hcut, unescape_encodeURIComponent]

/-- **Parameters are read back**, but for too many of them. -/
theorem query_written {u : Url} {v : Values} (h : u.rawQuery = writtenQuery v)
    (hlength : v.length ≤ maxQueryParams) : u.query = v := by
  cases v with
  | nil =>
      have hsplit : u.rawQuery.splitOn 0x26 = [[]] := by
        rw [h]
        rfl
      rw [Url.query, hsplit]
      rfl
  | cons p v =>
      have hampersand : ∀ q ∈ (p :: v).map writtenPair, (0x26 : UInt8) ∉ q := by
        intro q hq
        obtain ⟨r, -, rfl⟩ := List.mem_map.mp hq
        intro hmem
        have hbyte := mem_writtenPair hmem
        revert hbyte
        decide
      have hsplit : u.rawQuery.splitOn 0x26 = (p :: v).map writtenPair := by
        rw [h]
        exact List.splitOn_intercalate 0x26 hampersand (by simp)
      have hread : ∀ ps : Values,
          (ps.map writtenPair).filterMap parsePair = ps := by
        intro ps
        induction ps with
        | nil => rfl
        | cons q ps ih =>
            rw [List.map_cons, List.filterMap_cons, parsePair_written, ih]
      have hfew : ¬maxQueryParams < ((p :: v).map writtenPair).length := by
        rw [List.length_map]
        omega
      rw [Url.query, hsplit]
      simp only [if_neg hfew, hread]

/-! ## The target of a request -/

/-- The part of `parse` behind the scheme and in front of the query, where a URL
comes from a request: it has a scheme or begins with a slash. -/
def setTarget (u : Url) (rest : GoString) : Except Error Url :=
  if rest.head? ≠ some slash then
    if u.scheme ≠ [] then .ok { u with opaquePath := rest }
    else .error (.message "invalid URI for request")
  else if [slash, slash].isPrefixOf rest ∧ u.scheme ≠ [] then do
    let behind := rest.drop 2
    let (user, host) ← parseAuthority (behind.takeWhile (· ≠ slash))
    { u with user := user, host := host }.setPath
      (behind.dropWhile (· ≠ slash))
  else { u with omitHost := u.scheme ≠ [] }.setPath rest

/-- `url.ParseRequestURI`, which knows no fragment. -/
def parseRequestURI (rawURL : GoString) : Except Error Url :=
  if rawURL.any isControl then
    .error (.message "net/url: invalid control character in URL")
  else if rawURL = [] then .error (.message "empty url")
  else if rawURL = lit "*" then .ok { Url.zero with path := "*" }
  else do
    let (scheme, rest) ← getScheme rawURL
    let (before, query) := cut question rest
    setTarget
      { Url.zero with
        scheme := toLower scheme
        rawQuery := query
        forceQuery := question ∈ rest ∧ query = [] }
      before

theorem isControl_of_unreserved : ∀ b : UInt8, isUnreserved b = true →
    isControl b = false :=
  forall_byte (by decide +kernel)

/-- A byte of a query is no control byte. -/
theorem isControl_written (v : Values) :
    ∀ b ∈ writtenQuery v, isControl b = false := by
  intro b hb
  rcases mem_join hb with hsep | ⟨q, hq, hmem⟩
  · rw [List.mem_singleton.mp hsep]
    rfl
  · obtain ⟨p, -, rfl⟩ := List.mem_map.mp hq
    rcases mem_writtenPair hmem with h | rfl | rfl
    · exact isControl_of_unreserved b h
    · rfl
    · rfl

/-- A path that a page writes as it is: it begins with one slash, and nothing in
it is escaped. -/
structure Plain (path : GoString) : Prop where
  rooted : path.head? = some slash
  unescaped : ∀ b ∈ path, shouldEscape b .path = false
  visible : ∀ b ∈ path, isControl b = false

/-- **The target of a request**: the path and the parameters. -/
theorem parseRequestURI_written {path : GoString} (h : Plain path) {v : Values}
    (hv : v ≠ []) :
    parseRequestURI (path ++ question :: writtenQuery v) =
      .ok { Url.zero with path := path, rawQuery := writtenQuery v } := by
  obtain ⟨p, hp⟩ : ∃ p, path = slash :: p :=
    ⟨path.tail, (List.cons_head?_tail h.rooted).symm⟩
  have hquestion : question ∉ path := by
    intro hmem
    have hplain := h.unescaped _ hmem
    revert hplain
    decide
  have hcut : cut question (path ++ question :: writtenQuery v) =
      (path, writtenQuery v) := by
    rw [cut_append hquestion]
    simp [cut]
  have hvisible : (path ++ question :: writtenQuery v).any isControl = false := by
    rw [List.any_eq_false]
    intro b hb
    rw [Bool.not_eq_true]
    rcases List.mem_append.mp hb with hb | hb
    · exact h.visible b hb
    · rcases List.mem_cons.mp hb with rfl | hb
      · rfl
      · exact isControl_written v b hb
  have hquery : writtenQuery v ≠ [] := by
    obtain ⟨q, w, rfl⟩ := List.exists_cons_of_ne_nil hv
    cases w <;> simp [writtenQuery, GoString.join, writtenPair]
  have hescape : escape .path path = path :=
    (escape_eq_self_iff (by decide)).mpr h.unescaped
  have hunescape : unescape .path path = .ok path := by
    have hround : unescape .path (escape .path path) = .ok path :=
      unescape_escape (by decide) rfl (by decide) path
    rwa [hescape] at hround
  have hscheme : getScheme (path ++ question :: writtenQuery v) =
      .ok ([], path ++ question :: writtenQuery v) := by
    rw [hp]
    rfl
  have hstar : path ++ question :: writtenQuery v ≠ lit "*" := by
    rw [hp]
    intro hstar
    cases hstar
  have hne : path ++ question :: writtenQuery v ≠ [] := by
    simp
  have htarget : setTarget { Url.zero with rawQuery := writtenQuery v } path =
      .ok { Url.zero with path := path, rawQuery := writtenQuery v } := by
    rw [setTarget, if_neg (by rw [h.rooted]; simp), if_neg (by simp [Url.zero]),
      Url.setPath]
    simp only [hunescape, bind, Except.bind, hescape, if_true]
    rfl
  rw [parseRequestURI, if_neg (by simp [hvisible]), if_neg hne, if_neg hstar,
    hscheme]
  simp only [bind, Except.bind, hcut, hquery, and_false, decide_false]
  exact htarget

end Hdns.Verified.RequestUri

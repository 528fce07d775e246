import Hdns.Verified.GoEscape
import Mathlib.Data.List.DropRight

/-!
# URLs

`Parse`, `String` and `Values` of `net/url`.  A URL is cut at its first `#`, at
the first `?` in front of it, and, behind `scheme://`, at the first slash; the
parts are unescaped each in its own way and escaped again when the URL is
written.

A host may have one colon, in front of its port.  Left out is the exception for
the schemes of a database, which may list several hosts.

## Main results

* `parse_path` — the path of a URL with an authority is what stands behind the
  authority, unescaped.
* `writtenPath_string` — what stands there when such a URL is written.
* `Rooted.parse_string` — a URL that is written is parsed again if its authority
  is.
-/

namespace Hdns.Verified.GoUrl

open Hdns.Verified.GoString
open Hdns.Verified.GoEscape
open Hdns.Verified.GoPath (slash)
open Hdns.Verified.GoIP (isDigit percent dot colon)

def question : UInt8 := 0x3F
def hash : UInt8 := 0x23
def atSign : UInt8 := 0x40
def openBracket : UInt8 := 0x5B
def closeBracket : UInt8 := 0x5D

/-- `strings.Cut` at a byte. -/
def cut (c : UInt8) (s : GoString) : GoString × GoString :=
  (s.takeWhile (· ≠ c), (s.dropWhile (· ≠ c)).tail)

/-- The text up to the last `c` and the text behind it, for a text that has
one. -/
def cutLast (c : UInt8) (s : GoString) : GoString × GoString :=
  ((s.rdropWhile (· ≠ c)).dropLast, s.rtakeWhile (· ≠ c))

/-! ## The parts of a URL -/

structure Userinfo where
  username : GoString
  password : Option GoString
  deriving DecidableEq, Repr

/-- `URL`; `opaquePath` is `Opaque`. -/
structure Url where
  scheme : GoString
  opaquePath : GoString
  user : Option Userinfo
  host : GoString
  path : GoString
  rawPath : GoString
  omitHost : Bool
  forceQuery : Bool
  rawQuery : GoString
  fragment : GoString
  rawFragment : GoString
  deriving DecidableEq, Repr

/-- `new(URL)`. -/
def Url.zero : Url := ⟨[], [], none, [], [], [], false, false, [], [], []⟩

/-! ## `Parse` -/

/-- An ASCII control byte. -/
def isControl (b : UInt8) : Bool := b < 0x20 || b == 0x7F

def isLetter (b : UInt8) : Bool :=
  (0x41 ≤ b && b ≤ 0x5A) || (0x61 ≤ b && b ≤ 0x7A)

/-- A byte of a scheme: also `+-.` and the digits, but not in front. -/
def isSchemeByte (b : UInt8) : Bool :=
  isLetter b || isDigit b || b ∈ [0x2B, 0x2D, 0x2E]

/-- `getScheme`. -/
def getScheme (rawURL : GoString) : Except Error (GoString × GoString) :=
  let name := rawURL.takeWhile isSchemeByte
  match rawURL.dropWhile isSchemeByte with
  | [] => .ok ([], rawURL)
  | b :: rest =>
      if b ≠ colon then .ok ([], rawURL)
      else match name with
        | [] => .error (.message "missing protocol scheme")
        | first :: _ =>
            if isLetter first then .ok (name, rest) else .ok ([], rawURL)

/-- `strings.ToLower` of a scheme. -/
def toLower (s : GoString) : GoString :=
  s.map fun b => if 0x41 ≤ b ∧ b ≤ 0x5A then b + 0x20 else b

/-- `validUserinfo`: `-._:~!$&'()*+,;=%@` beside letters and digits. -/
def validUserinfo (s : GoString) : Bool :=
  s.all fun b => isAlphanumeric b ||
    b ∈ [0x2D, 0x2E, 0x5F, 0x3A, 0x7E, 0x21, 0x24, 0x26, 0x27, 0x28, 0x29, 0x2A,
      0x2B, 0x2C, 0x3B, 0x3D, 0x25, 0x40]

/-- `validOptionalPort`. -/
def validOptionalPort : GoString → Bool
  | [] => true
  | b :: port => b == colon && port.all isDigit

/-- `URL.Port`: what follows the last colon of a host, where that is a port. -/
def port (host : GoString) : GoString :=
  let port := (cutLast colon host).2
  if colon ∈ host ∧ port.all isDigit then port else []

example : port "[::1]:8443" = "8443" ∧ port "[::1]" = [] := by decide +kernel

/-- `netip.ParseAddr`, of a text that is to be an IPv6 address: the first dot,
colon or percent sign decides, and a zone must not be empty. -/
def checkAddr (s : GoString) : Except Error Unit :=
  match s.find? fun b => b = dot ∨ b = colon ∨ b = percent with
  | none => .error (.address s)
  | some b =>
      if b = colon then
        let (addr, zone) := cut percent s
        if percent ∈ s ∧ zone = [] then .error (.address s)
        else if (GoIP.parseIPv6 addr).isNone then .error (.address s)
        else .ok ()
      else if b = dot ∧ (GoIP.parseIPv4Fields [] 0 0 s).isSome then
        .error (.message "invalid IP-literal")
      else .error (.address s)

/-- The text up to `%25` and the text from there on, if it occurs. -/
def cutZone : GoString → Option (GoString × GoString)
  | [] => none
  | c :: s =>
      if [percent, 0x32, 0x35].isPrefixOf (c :: s) then some ([], c :: s)
      else (cutZone s).map fun (host, zone) => (c :: host, zone)

/-- The host between brackets. -/
def unescapeHostname (hostname : GoString) : Except Error GoString :=
  match cutZone hostname with
  | some (host, zone) => do
      let hostPart ← unescape .host host
      let zonePart ← unescape .zone zone
      pure (hostPart ++ zonePart)
  | none => unescape .host hostname

/-- `parseHost`. -/
def parseHost (host : GoString) : Except Error GoString :=
  if openBracket ∈ host then
    if (cutLast openBracket host).1 ≠ [] then
      .error (.message "invalid IP-literal")
    else if closeBracket ∉ host then .error (.message "missing ']' in host")
    else do
      let (inside, colonPort) := cutLast closeBracket host
      if ¬validOptionalPort colonPort then Except.error (.port colonPort)
      let colonPort ← unescape .host colonPort
      let hostname ← unescapeHostname inside.tail
      checkAddr hostname
      pure (openBracket :: hostname ++ closeBracket :: colonPort)
  else
    let colonPort := host.dropWhile (· ≠ colon)
    if ¬validOptionalPort colonPort then .error (.port colonPort)
    else unescape .host host

/-- The part of `parseAuthority` in front of the last `@`. -/
def parseUserinfo (userinfo : GoString) : Except Error Userinfo :=
  if ¬validUserinfo userinfo then .error (.message "net/url: invalid userinfo")
  else if colon ∉ userinfo then do
    let username ← unescape .userPassword userinfo
    pure ⟨username, none⟩
  else do
    let username ← unescape .userPassword (cut colon userinfo).1
    let password ← unescape .userPassword (cut colon userinfo).2
    pure ⟨username, some password⟩

/-- `parseAuthority`. -/
def parseAuthority (authority : GoString) :
    Except Error (Option Userinfo × GoString) :=
  if atSign ∉ authority then do
    let host ← parseHost authority
    pure (none, host)
  else do
    let host ← parseHost (cutLast atSign authority).2
    let user ← parseUserinfo (cutLast atSign authority).1
    pure (some user, host)

/-- `setPath`. -/
def Url.setPath (u : Url) (p : GoString) : Except Error Url := do
  let path ← unescape .path p
  pure { u with
    path := path, rawPath := if escape .path path = p then [] else p }

/-- `setFragment`. -/
def Url.setFragment (u : Url) (f : GoString) : Except Error Url := do
  let fragment ← unescape .fragment f
  pure { u with
    fragment := fragment
    rawFragment := if escape .fragment fragment = f then [] else f }

/-- The part of `parse` behind the scheme and in front of the query. -/
def Url.setRest (u : Url) (rest : GoString) : Except Error Url :=
  if rest.head? ≠ some slash then
    if u.scheme ≠ [] then .ok { u with opaquePath := rest }
    else if colon ∈ (cut slash rest).1 then
      .error (.message "first path segment in URL cannot contain colon")
    else u.setPath rest
  else if [slash, slash].isPrefixOf rest ∧
      (u.scheme ≠ [] ∨ ¬[slash, slash, slash].isPrefixOf rest) then do
    let behind := rest.drop 2
    let (user, host) ← parseAuthority (behind.takeWhile (· ≠ slash))
    { u with user := user, host := host }.setPath
      (behind.dropWhile (· ≠ slash))
  else { u with omitHost := u.scheme ≠ [] }.setPath rest

/-- `parse`; the query is forced if there is nothing behind the question
mark. -/
def parseBeforeFragment (rawURL : GoString) : Except Error Url :=
  if rawURL.any isControl then
    .error (.message "net/url: invalid control character in URL")
  else if rawURL = lit "*" then .ok { Url.zero with path := "*" }
  else do
    let (scheme, rest) ← getScheme rawURL
    let (before, query) := cut question rest
    { Url.zero with
      scheme := toLower scheme
      rawQuery := query
      forceQuery := question ∈ rest ∧ query = [] }.setRest before

/-- `Parse`. -/
def parse (rawURL : GoString) : Except Error Url := do
  let (before, fragment) := cut hash rawURL
  let u ← parseBeforeFragment before
  if fragment = [] then pure u else u.setFragment fragment

/-! ## `String` -/

/-- `validEncoded`: `!$&'()*+,;=:@[]%`, or what is not escaped. -/
def validEncoded (s : GoString) (mode : Mode) : Bool :=
  s.all fun b =>
    b ∈ [0x21, 0x24, 0x26, 0x27, 0x28, 0x29, 0x2A, 0x2B, 0x2C, 0x3B, 0x3D, 0x3A,
      0x40, openBracket, closeBracket, percent] || !shouldEscape b mode

/-- `EscapedPath`. -/
def Url.escapedPath (u : Url) : GoString :=
  if u.rawPath ≠ [] ∧ validEncoded u.rawPath .path ∧
      unescape .path u.rawPath = .ok u.path then u.rawPath
  else if u.path = lit "*" then "*"
  else escape .path u.path

/-- `EscapedFragment`. -/
def Url.escapedFragment (u : Url) : GoString :=
  if u.rawFragment ≠ [] ∧ validEncoded u.rawFragment .fragment ∧
      unescape .fragment u.rawFragment = .ok u.fragment then u.rawFragment
  else escape .fragment u.fragment

/-- `Userinfo.String`. -/
def Userinfo.string (user : Userinfo) : GoString :=
  if user.username ≠ [] ∨ user.password.getD [] ≠ [] then
    escape .userPassword user.username ++
      match user.password with
      | none => []
      | some password => colon :: escape .userPassword password
  else []

/-- The authority, with the slashes in front of it. -/
def Url.authority (u : Url) : GoString :=
  if (u.scheme = [] ∧ u.host = [] ∧ u.user = none) ∨
      (u.omitHost ∧ u.host = [] ∧ u.user = none) then []
  else
    (if u.host ≠ [] ∨ u.path ≠ [] ∨ u.user ≠ none then [slash, slash]
      else []) ++
    (match u.user with
      | none => []
      | some user => user.string ++ [atSign]) ++
    escape .host u.host

/-- The authority and the path. -/
def Url.hierarchy (u : Url) : GoString :=
  let path := u.escapedPath
  let missing := if path ≠ [] ∧ path.head? ≠ some slash ∧ u.host ≠ [] then
    [slash] else []
  let front := u.authority ++ missing
  let relative := if u.scheme = [] ∧ front = [] ∧ colon ∈ (cut slash path).1
    then lit "./" else []
  front ++ relative ++ path

/-- `String`. -/
def Url.string (u : Url) : GoString :=
  (if u.scheme ≠ [] then u.scheme ++ [colon] else []) ++
  (if u.opaquePath ≠ [] then u.opaquePath else u.hierarchy) ++
  (if u.forceQuery ∨ u.rawQuery ≠ [] then question :: u.rawQuery else []) ++
  (if u.fragment ≠ [] then hash :: u.escapedFragment else [])

example : (parse "https://fw:8443/a%20b/?q#top").map Url.string =
    .ok (lit "https://fw:8443/a%20b/?q#top") := by decide +kernel

/-! ## URLs with an authority -/

/-- What stands behind the authority of such a URL and in front of its query,
as it is written. -/
def writtenPath (text : GoString) : GoString :=
  (((text.dropWhile (· ≠ colon)).drop 3).takeWhile fun c =>
    c ≠ question ∧ c ≠ hash).dropWhile (· ≠ slash)

/-- A scheme of letters. -/
structure Letters (scheme : GoString) : Prop where
  some : scheme ≠ []
  letters : ∀ b ∈ scheme, isLetter b = true

section Web

variable {scheme : GoString}

theorem isLetter_ne {b : UInt8} (h : isLetter b = true) :
    b ≠ colon ∧ b ≠ hash ∧ b ≠ question ∧ b ≠ slash ∧ isSchemeByte b = true ∧
      isControl b = false := by
  have hall : ∀ b, isLetter b = true → b ≠ colon ∧ b ≠ hash ∧ b ≠ question ∧
      b ≠ slash ∧ isSchemeByte b = true ∧ isControl b = false := by
    apply forall_byte
    decide +kernel
  exact hall b h

theorem getScheme_letters (h : Letters scheme) (rest : GoString) :
    getScheme (scheme ++ colon :: rest) = .ok (scheme, rest) := by
  have hbytes : ∀ b ∈ scheme, isSchemeByte b = true := fun b hb =>
    (isLetter_ne (h.letters b hb)).2.2.2.2.1
  have htake : (scheme ++ colon :: rest).takeWhile isSchemeByte = scheme := by
    rw [List.takeWhile_append_of_pos hbytes,
      List.takeWhile_cons_of_neg (by decide), List.append_nil]
  have hdrop : (scheme ++ colon :: rest).dropWhile isSchemeByte =
      colon :: rest := by
    rw [List.dropWhile_append_of_pos hbytes,
      List.dropWhile_cons_of_neg (by decide)]
  rw [getScheme, htake, hdrop]
  obtain ⟨first, name, rfl⟩ := List.exists_cons_of_ne_nil h.some
  simp [h.letters first List.mem_cons_self]

/-- A cut behind the scheme and the slashes. -/
theorem cut_web (h : Letters scheme) {c : UInt8} (hc : c ≠ colon)
    (hslash : c ≠ slash) (hletter : isLetter c = false) (rest : GoString) :
    cut c (scheme ++ colon :: slash :: slash :: rest) =
      (scheme ++ colon :: slash :: slash :: (cut c rest).1, (cut c rest).2) := by
  have hbytes : ∀ b ∈ scheme, decide (b ≠ c) = true := by
    intro b hb
    refine decide_eq_true ?_
    rintro rfl
    rw [h.letters b hb] at hletter
    cases hletter
  rw [cut, List.takeWhile_append_of_pos hbytes,
    List.dropWhile_append_of_pos hbytes]
  simp [cut, Ne.symm hc, Ne.symm hslash]

/-- `Parse` behind `scheme://`. -/
def parseBehind (scheme rest : GoString) : Except Error Url :=
  let front := (cut hash rest).1
  let hier := (cut question front).1
  let query := (cut question front).2
  if front.any isControl then
    .error (.message "net/url: invalid control character in URL")
  else do
    let (user, host) ← parseAuthority (hier.takeWhile (· ≠ slash))
    let u ← { Url.zero with
      scheme := toLower scheme
      user := user
      host := host
      rawQuery := query
      forceQuery := question ∈ front ∧ query = [] }.setPath
        (hier.dropWhile (· ≠ slash))
    if (cut hash rest).2 = [] then pure u else u.setFragment (cut hash rest).2

theorem setRest_web {u : Url} (hu : u.scheme ≠ []) (s : GoString) :
    u.setRest (slash :: slash :: s) = (do
      let (user, host) ← parseAuthority (s.takeWhile (· ≠ slash))
      { u with user := user, host := host }.setPath
        (s.dropWhile (· ≠ slash))) := by
  have hhead : ¬(slash :: slash :: s).head? ≠ some slash := not_not_intro rfl
  have hslashes : [slash, slash].isPrefixOf (slash :: slash :: s) = true ∧
      (u.scheme ≠ [] ∨
        ¬[slash, slash, slash].isPrefixOf (slash :: slash :: s) = true) :=
    ⟨rfl, .inl hu⟩
  rw [Url.setRest, if_neg hhead, if_pos hslashes]
  rfl

theorem parseBeforeFragment_web (h : Letters scheme) (s : GoString) :
    parseBeforeFragment (scheme ++ colon :: slash :: slash :: s) =
      if s.any isControl then
        .error (.message "net/url: invalid control character in URL")
      else
        { Url.zero with
          scheme := toLower scheme
          rawQuery := (cut question s).2
          forceQuery := question ∈ s ∧ (cut question s).2 = [] }.setRest
            (slash :: slash :: (cut question s).1) := by
  have hcontrol : (scheme ++ colon :: slash :: slash :: s).any isControl =
      s.any isControl := by
    have hnone : scheme.any isControl = false := by
      rw [List.any_eq_false]
      intro b hb
      rw [(isLetter_ne (h.letters b hb)).2.2.2.2.2]
      decide
    rw [List.any_append, hnone]
    rfl
  have hstar : scheme ++ colon :: slash :: slash :: s ≠ lit "*" := by
    intro hs
    have hlen := congrArg List.length hs
    rw [List.length_append, show (lit "*").length = 1 by decide] at hlen
    simp only [List.length_cons] at hlen
    omega
  have hquestion : (question ∈ slash :: slash :: s) = (question ∈ s) := by
    simp [show question ≠ slash by decide]
  have hcut : cut question (slash :: slash :: s) =
      (slash :: slash :: (cut question s).1, (cut question s).2) := by
    simp [cut, show slash ≠ question by decide]
  rw [parseBeforeFragment, hcontrol, if_neg hstar, getScheme_letters h]
  simp only [bind, Except.bind, hcut, hquestion]

/-- **A URL with an authority is parsed** part by part. -/
theorem parse_web (h : Letters scheme) (rest : GoString) :
    parse (scheme ++ colon :: slash :: slash :: rest) =
      parseBehind scheme rest := by
  have hlower : toLower scheme ≠ [] := by
    rw [toLower, Ne, List.map_eq_nil_iff]
    exact h.some
  rw [parse, cut_web h (by decide) (by decide) (by decide)]
  simp only [parseBeforeFragment_web h, parseBehind]
  split
  · rfl
  · rw [setRest_web hlower]
    cases parseAuthority ((cut question (cut hash rest).1).1.takeWhile
        (· ≠ slash)) with
    | error err => rfl
    | ok authority => rfl

/-- What a parsed URL keeps of its text. -/
structure Parsed (scheme written : GoString) (u : Url) : Prop where
  scheme : u.scheme = toLower scheme
  opaquePath : u.opaquePath = []
  omitHost : u.omitHost = false
  path : unescape .path written = .ok u.path
  rawPath : u.rawPath = [] ∨ u.rawPath = written

theorem writtenPath_web (h : Letters scheme) (rest : GoString) :
    writtenPath (scheme ++ colon :: slash :: slash :: rest) =
      (cut question (cut hash rest).1).1.dropWhile (· ≠ slash) := by
  have hbytes : ∀ b ∈ scheme, decide (b ≠ colon) = true := fun b hb =>
    decide_eq_true (isLetter_ne (h.letters b hb)).1
  rw [writtenPath, List.dropWhile_append_of_pos hbytes,
    List.dropWhile_cons_of_neg (by decide), cut, cut]
  simp only [List.drop_succ_cons, List.drop_zero, List.takeWhile_takeWhile]
  congr 2
  funext c
  simp

/-- **The path of a parsed URL** is what is written there, unescaped. -/
theorem parse_path (h : Letters scheme) {rest : GoString} {u : Url}
    (hu : parse (scheme ++ colon :: slash :: slash :: rest) = .ok u) :
    Parsed scheme (writtenPath (scheme ++ colon :: slash :: slash :: rest))
      u := by
  rw [parse_web h, parseBehind] at hu
  rw [writtenPath_web h]
  dsimp only at hu
  split at hu
  · cases hu
  obtain ⟨authority, -, hu⟩ := Prog.except_bind_eq_ok.mp hu
  obtain ⟨u', hpath, hu⟩ := Prog.except_bind_eq_ok.mp hu
  obtain ⟨path, hunescape, hu'⟩ := Prog.except_bind_eq_ok.mp hpath
  obtain rfl := Except.ok.inj hu'
  have hraw : ∀ p raw : GoString, (if p = raw then [] else raw) = [] ∨
      (if p = raw then [] else raw) = raw := by
    intro p raw
    split_ifs
    · exact .inl rfl
    · exact .inr rfl
  split at hu
  · obtain rfl := Except.ok.inj hu
    exact ⟨rfl, rfl, rfl, hunescape, hraw _ _⟩
  · obtain ⟨fragment, -, hu⟩ := Prog.except_bind_eq_ok.mp hu
    obtain rfl := Except.ok.inj hu
    exact ⟨rfl, rfl, rfl, hunescape, hraw _ _⟩

/-- A cut behind a text without the byte. -/
theorem cut_append {c : UInt8} {s : GoString} (hs : c ∉ s) (t : GoString) :
    cut c (s ++ t) = (s ++ (cut c t).1, (cut c t).2) := by
  have hbytes : ∀ b ∈ s, decide (b ≠ c) = true := fun b hb =>
    decide_eq_true (ne_of_mem_of_not_mem hb hs)
  rw [cut, List.takeWhile_append_of_pos hbytes,
    List.dropWhile_append_of_pos hbytes, cut]

/-- A byte that ends the authority. -/
def endsAuthority (c : UInt8) : Prop := c = slash ∨ c = question ∨ c = hash

/-- None is written for a user or a host. -/
theorem not_mem_escape_authority {mode : Mode} (hmode : mode = .userPassword ∨
    mode = .host) (s : GoString) : ∀ c ∈ escape mode s, ¬endsAuthority c := by
  rintro c hc (rfl | rfl | rfl)
  · refine not_mem_escape ?_ (by decide) (by decide) s hc
    rcases hmode with rfl | rfl <;> decide +kernel
  · refine not_mem_escape ?_ (by decide) (by decide) s hc
    rcases hmode with rfl | rfl <;> decide +kernel
  · refine not_mem_escape ?_ (by decide) (by decide) s hc
    rcases hmode with rfl | rfl <;> decide +kernel

/-- The user, with the `@` behind it. -/
def userText : Option Userinfo → GoString
  | none => []
  | some user => user.string ++ [atSign]

theorem not_mem_userText (user : Option Userinfo) :
    ∀ c ∈ userText user, ¬endsAuthority c := by
  have hat : ¬endsAuthority atSign := by
    rintro (h | h | h) <;> cases h
  have hcolon : ¬endsAuthority colon := by
    rintro (h | h | h) <;> cases h
  have hescape := fun s => not_mem_escape_authority (.inl rfl) s
  cases user with
  | none => nofun
  | some user =>
      obtain ⟨username, password⟩ := user
      intro c hc
      rcases List.mem_append.mp hc with hc | hc
      · unfold Userinfo.string at hc
        split at hc
        · rcases List.mem_append.mp hc with hc | hc
          · exact hescape _ c hc
          · cases password with
            | none => cases hc
            | some password =>
                rcases List.mem_cons.mp hc with rfl | hc
                · exact hcolon
                · exact hescape _ c hc
        · cases hc
      · rw [List.mem_singleton.mp hc]
        exact hat

/-- What follows the path of a written URL. -/
def Url.tail (u : Url) : GoString :=
  (if u.forceQuery ∨ u.rawQuery ≠ [] then question :: u.rawQuery else []) ++
    if u.fragment ≠ [] then hash :: u.escapedFragment else []

/-- **A URL with a path is written** part by part. -/
theorem string_web {u : Url} (h : u.scheme ≠ []) (hrootless : u.opaquePath = [])
    (homit : u.omitHost = false) (hpath : u.path ≠ [])
    (hescaped : u.escapedPath.head? = some slash) :
    u.string = u.scheme ++ colon :: slash :: slash ::
      (userText u.user ++ escape .host u.host ++ (u.escapedPath ++ u.tail)) := by
  have hauthority : u.authority =
      [slash, slash] ++ userText u.user ++ escape .host u.host := by
    rw [Url.authority, if_neg (by simp [h, homit]), if_pos (by simp [hpath])]
    cases u.user <;> rfl
  have hhierarchy : u.hierarchy = u.authority ++ u.escapedPath := by
    rw [Url.hierarchy]
    simp [hescaped, h]
  rw [Url.string, if_pos h, if_neg (not_not_intro hrootless), hhierarchy,
    hauthority, Url.tail]
  simp

/-- Escaping keeps the slash in front of a path. -/
theorem head_escape_path {p : GoString} (h : p.head? = some slash) :
    (escape .path p).head? = some slash := by
  obtain ⟨rest, rfl⟩ := List.head?_eq_some_iff.mp h
  rw [escape_cons, show escapeByte .path slash = [slash] by decide +kernel]
  rfl

/-- **The path of a written URL** is escaped, if its text gives no other hint. -/
theorem writtenPath_string {u : Url} (h : Letters u.scheme)
    (hrootless : u.opaquePath = []) (homit : u.omitHost = false)
    (hpath : u.path.head? = some slash)
    (hescaped : u.escapedPath = escape .path u.path) :
    writtenPath u.string = escape .path u.path := by
  have hfront : ∀ c ∈ userText u.user ++ escape .host u.host,
      ¬endsAuthority c := by
    intro c hc
    rcases List.mem_append.mp hc with hc | hc
    · exact not_mem_userText _ c hc
    · exact not_mem_escape_authority (.inr rfl) _ c hc
  have hquestion : question ∉ escape .path u.path :=
    not_mem_escape (by decide +kernel) (by decide) (by decide) _
  have hhash : hash ∉ escape .path u.path :=
    not_mem_escape (by decide +kernel) (by decide) (by decide) _
  have hhead := head_escape_path hpath
  have hne : u.path ≠ [] := by
    intro hnil
    rw [hnil] at hpath
    cases hpath
  rw [string_web h.some hrootless homit hne (by rw [hescaped]; exact hhead),
    writtenPath_web h, hescaped]
  generalize userText u.user ++ escape .host u.host = front at hfront ⊢
  have htail : (cut question (cut hash u.tail).1).1 = [] := by
    unfold Url.tail
    split_ifs <;> simp [cut, show question ≠ hash by decide]
  have hfronthash : hash ∉ front := fun hc => hfront _ hc (.inr (.inr rfl))
  have hfrontquestion : question ∉ front := fun hc =>
    hfront _ hc (.inr (.inl rfl))
  have hslash : ∀ c ∈ front, decide (c ≠ slash) = true := fun c hc =>
    decide_eq_true fun heq => hfront c hc (.inl heq)
  rw [cut_append hfronthash, cut_append hhash, cut_append hfrontquestion,
    cut_append hquestion, htail, List.append_nil]
  dsimp only
  rw [List.dropWhile_append_of_pos hslash]
  obtain ⟨p, hp⟩ := List.head?_eq_some_iff.mp hhead
  rw [hp]
  exact List.dropWhile_cons_of_neg (by decide)

end Web

/-! ## `Values` -/

/-- The pairs of a query, in their order. -/
abbrev Values := List (GoString × GoString)

/-- One pair of a query, unless it is malformed. -/
def parsePair (pair : GoString) : Option (GoString × GoString) :=
  if 0x3B ∈ pair ∨ pair = [] then none
  else
    match queryUnescape (cut 0x3D pair).1, queryUnescape (cut 0x3D pair).2 with
    | .ok key, .ok value => some (key, value)
    | _, _ => none

/-- `urlmaxqueryparams`. -/
def maxQueryParams : Nat := 10000

/-- `Query`: malformed pairs are left out, and all of too many. -/
def Url.query (u : Url) : Values :=
  let pairs := u.rawQuery.splitOn 0x26
  if maxQueryParams < pairs.length then [] else pairs.filterMap parsePair

/-- `Values.Set`. -/
def Values.set (v : Values) (key value : GoString) : Values :=
  v.filter (fun p => p.1 ≠ key) ++ [(key, value)]

/-- The order of `slices.Sorted` on texts. -/
def leText : GoString → GoString → Bool
  | [], _ => true
  | _ :: _, [] => false
  | b :: s, c :: t => b < c || b == c && leText s t

/-- `Values.Encode`: by key, the values of a key in their order. -/
def Values.encode (v : Values) : GoString :=
  GoString.join ((v.mergeSort fun p q => leText p.1 q.1).map fun p =>
    queryEscape p.1 ++ 0x3D :: queryEscape p.2) [0x26]

/-! ## Parsing what was written -/

/-- A byte that can be written anywhere behind the authority. -/
def Written (c : UInt8) : Prop := isControl c = false ∧ c ≠ hash

instance (c : UInt8) : Decidable (Written c) :=
  inferInstanceAs (Decidable (_ ∧ _))

theorem shouldEscape_of_isControl {c : UInt8} (h : isControl c = true)
    (mode : Mode) : shouldEscape c mode = true := by
  have hall : ∀ c : UInt8, isControl c = true → shouldEscape c mode = true := by
    apply forall_byte
    cases mode <;> decide +kernel
  exact hall c h

/-- No control byte is written. -/
theorem isControl_escape {mode : Mode} {s : GoString} :
    ∀ c ∈ escape mode s, isControl c = false := by
  intro c hc
  rw [← Bool.not_eq_true]
  intro hcontrol
  rcases mem_escape hc (shouldEscape_of_isControl hcontrol mode) with rfl | rfl
  · revert hcontrol
    decide
  · revert hcontrol
    decide

/-- No hash is written for a path or a query. -/
theorem written_escape {mode : Mode}
    (hmode : shouldEscape hash mode = true) (s : GoString) :
    ∀ c ∈ escape mode s, Written c := by
  refine fun c hc => ⟨isControl_escape c hc, ?_⟩
  rintro rfl
  exact not_mem_escape hmode (by decide) (by decide) s hc

theorem written_encode (v : Values) : ∀ c ∈ v.encode, Written c := by
  intro c hc
  rcases mem_join hc with hc | ⟨p, hp, hc⟩
  · rw [List.mem_singleton.mp hc]
    decide
  · obtain ⟨pair, -, rfl⟩ := List.mem_map.mp hp
    rcases List.mem_append.mp hc with hc | hc
    · exact written_escape (by decide +kernel) _ c hc
    · rcases List.mem_cons.mp hc with rfl | hc
      · decide
      · exact written_escape (by decide +kernel) _ c hc

/-- What is known of a path as it is written. -/
structure EscapedPath (u : Url) : Prop where
  written : ∀ c ∈ u.escapedPath, Written c
  question : question ∉ u.escapedPath
  unescape : unescape .path u.escapedPath = .ok u.path

theorem escapedPath_spec (u : Url) : EscapedPath u := by
  have hbyte : ∀ b : UInt8, validEncoded [b] .path = true →
      Written b ∧ b ≠ GoUrl.question := by
    apply forall_byte
    decide +kernel
  by_cases hraw : u.rawPath ≠ [] ∧ validEncoded u.rawPath .path ∧
      GoEscape.unescape .path u.rawPath = .ok u.path
  · have hvalid : ∀ c ∈ u.rawPath, Written c ∧ c ≠ GoUrl.question := by
      intro c hc
      refine hbyte c ?_
      have hall := List.all_eq_true.mp hraw.2.1 c hc
      rw [validEncoded, List.all_cons, hall]
      rfl
    have hpath : u.escapedPath = u.rawPath := if_pos hraw
    refine ⟨fun c hc => (hvalid c (hpath ▸ hc)).1, fun hc => ?_, ?_⟩
    · exact (hvalid _ (hpath ▸ hc)).2 rfl
    · rw [hpath]
      exact hraw.2.2
  by_cases hstar : u.path = lit "*"
  · have hpath : u.escapedPath = lit "*" := by
      rw [Url.escapedPath, if_neg hraw, if_pos hstar]
    refine ⟨?_, ?_, ?_⟩
    · rw [hpath]
      decide +kernel
    · rw [hpath]
      decide +kernel
    · rw [hpath, hstar]
      decide +kernel
  · have hpath : u.escapedPath = escape .path u.path := by
      rw [Url.escapedPath, if_neg hraw, if_neg hstar]
    refine ⟨?_, ?_, ?_⟩
    · rw [hpath]
      exact written_escape (by decide +kernel) _
    · rw [hpath]
      exact not_mem_escape (by decide +kernel) (by decide) (by decide) _
    · rw [hpath]
      exact unescape_escape (by decide) rfl (by decide) _

theorem unescape_escapedFragment (u : Url) :
    unescape .fragment u.escapedFragment = .ok u.fragment := by
  by_cases hraw : u.rawFragment ≠ [] ∧ validEncoded u.rawFragment .fragment ∧
      unescape .fragment u.rawFragment = .ok u.fragment
  · rw [Url.escapedFragment, if_pos hraw]
    exact hraw.2.2
  · rw [Url.escapedFragment, if_neg hraw]
    exact unescape_escape (by decide) rfl (by decide) _

/-- The user and the host, as they are written. -/
def Url.writtenAuthority (u : Url) : GoString :=
  userText u.user ++ escape .host u.host

theorem mem_writtenAuthority (u : Url) :
    ∀ c ∈ u.writtenAuthority, isControl c = false ∧ ¬endsAuthority c := by
  intro c hc
  rcases List.mem_append.mp hc with hc | hc
  · refine ⟨?_, not_mem_userText _ c hc⟩
    cases huser : u.user with
    | none =>
        rw [huser] at hc
        cases hc
    | some user =>
        rw [huser] at hc
        rcases List.mem_append.mp hc with hc | hc
        · unfold Userinfo.string at hc
          split at hc
          · rcases List.mem_append.mp hc with hc | hc
            · exact isControl_escape c hc
            · cases hpassword : user.password with
              | none =>
                  rw [hpassword] at hc
                  cases hc
              | some password =>
                  rw [hpassword] at hc
                  rcases List.mem_cons.mp hc with rfl | hc
                  · decide
                  · exact isControl_escape c hc
          · cases hc
        · rw [List.mem_singleton.mp hc]
          decide
  · exact ⟨isControl_escape c hc, not_mem_escape_authority (.inr rfl) _ c hc⟩

/-- The URL of a rooted path, and a query as `Values.encode` writes it. -/
structure Rooted (u : Url) : Prop where
  scheme : Letters u.scheme
  rootless : u.opaquePath = []
  omitHost : u.omitHost = false
  path : u.path.head? = some slash
  rawPath : u.rawPath = [] ∨ u.rawPath.head? = some slash
  query : ∀ c ∈ u.rawQuery, Written c

/-- The query, with the question mark in front of it. -/
def Url.queryText (u : Url) : GoString :=
  if u.forceQuery ∨ u.rawQuery ≠ [] then question :: u.rawQuery else []

namespace Rooted

variable {u : Url}

theorem path_ne (h : Rooted u) : u.path ≠ [] := by
  intro hnil
  have hhead := h.path
  rw [hnil] at hhead
  cases hhead

theorem escapedPath_head (h : Rooted u) : u.escapedPath.head? = some slash := by
  have hstar : u.path ≠ lit "*" := by
    intro heq
    have hhead := h.path
    rw [heq] at hhead
    revert hhead
    decide
  by_cases hraw : u.rawPath ≠ [] ∧ validEncoded u.rawPath .path ∧
      unescape .path u.rawPath = .ok u.path
  · rw [Url.escapedPath, if_pos hraw]
    exact h.rawPath.resolve_left hraw.1
  · rw [Url.escapedPath, if_neg hraw, if_neg hstar]
    exact head_escape_path h.path

theorem queryText_written (h : Rooted u) : ∀ c ∈ u.queryText, Written c := by
  intro c hc
  unfold Url.queryText at hc
  split at hc
  · rcases List.mem_cons.mp hc with rfl | hc
    · decide
    · exact h.query c hc
  · cases hc

/-- **What was written is parsed** to the same path, query and fragment; what
becomes of the host is a matter of the authority alone. -/
theorem parse_string (h : Rooted u) :
    (parse u.string).map Url.host =
      (parseAuthority u.writtenAuthority).map Prod.snd := by
  obtain ⟨hwritten, hquestion, hunescape⟩ := escapedPath_spec u
  have hfront := mem_writtenAuthority u
  have htail : u.tail = u.queryText ++
      if u.fragment ≠ [] then hash :: u.escapedFragment else [] := rfl
  have hcutTail : cut hash u.tail = (u.queryText,
      if u.fragment ≠ [] then u.escapedFragment else []) := by
    have hquery : hash ∉ u.queryText := fun hc =>
      (h.queryText_written _ hc).2 rfl
    rw [htail, cut_append hquery]
    split_ifs <;> simp [cut]
  have hcutQuery : (cut question u.queryText).1 = [] := by
    unfold Url.queryText
    split_ifs <;> simp [cut]
  have hhash : hash ∉ u.writtenAuthority ++ u.escapedPath := by
    intro hc
    rcases List.mem_append.mp hc with hc | hc
    · exact (hfront _ hc).2 (.inr (.inr rfl))
    · exact (hwritten _ hc).2 rfl
  have hquestion' : question ∉ u.writtenAuthority ++ u.escapedPath := by
    intro hc
    rcases List.mem_append.mp hc with hc | hc
    · exact (hfront _ hc).2 (.inr (.inl rfl))
    · exact hquestion hc
  have hcontrol : (u.writtenAuthority ++ u.escapedPath ++ u.queryText).any
      isControl = false := by
    rw [List.any_eq_false]
    intro c hc
    rw [Bool.not_eq_true]
    rcases List.mem_append.mp hc with hc | hc
    · rcases List.mem_append.mp hc with hc | hc
      · exact (hfront c hc).1
      · exact (hwritten c hc).1
    · exact (h.queryText_written c hc).1
  have hslash : ∀ c ∈ u.writtenAuthority, decide (c ≠ slash) = true := fun c hc =>
    decide_eq_true fun heq => (hfront c hc).2 (.inl heq)
  obtain ⟨p, hp⟩ := List.head?_eq_some_iff.mp h.escapedPath_head
  rw [string_web h.scheme.some h.rootless h.omitHost h.path_ne
    h.escapedPath_head, parse_web h.scheme, ← List.append_assoc]
  rw [show userText u.user ++ escape .host u.host = u.writtenAuthority from rfl]
  rw [parseBehind]
  simp only [cut_append hhash, hcutTail, hcontrol, cut_append hquestion',
    hcutQuery, List.append_nil]
  rw [List.takeWhile_append_of_pos hslash, List.dropWhile_append_of_pos hslash,
    hp, List.takeWhile_cons_of_neg (by decide),
    List.dropWhile_cons_of_neg (by decide), ← hp, List.append_nil]
  cases parseAuthority u.writtenAuthority with
  | error err => rfl
  | ok authority =>
      simp only [bind, Except.bind, Url.setPath, hunescape]
      by_cases hfragment : u.fragment = []
      · simp [hfragment, pure, Except.pure, Except.map]
      · have hfragment' := unescape_escapedFragment u
        rw [if_pos hfragment]
        by_cases hnone : u.escapedFragment = []
        · simp [hnone, pure, Except.pure, Except.map]
        · simp [hnone, Url.setFragment, hfragment', bind, Except.bind, pure,
            Except.pure, Except.map]

end Rooted

end Hdns.Verified.GoUrl

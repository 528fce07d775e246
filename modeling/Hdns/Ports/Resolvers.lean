import Hdns.Ports.Consensus
import Hdns.Verified.GoIP
import Hdns.Verified.TrimSpace

/-!
# Reading an address from a resolver

An HTTP resolver answers with its caller's address as text.  The functions read
at most 15 or 45 bytes of the body, the longest texts of the two families, trim
them, and ask `ValidateIpv4Address` or `ValidateIpv6Address` whether they are a
public address of the family.  Both look at the parsed address only; what is
stored and published is the text.  A DNS resolver answers with records; of its
function the part behind the exchange is modelled.

## Main results

* `whole_body_iff` — which bodies are not taken for another address because
  only a part of them is read.
* `resolveEntry_accepted` — what a resolver hands on has been validated.
* `usable_iff` — which texts are record values of their family if they are
  accepted for it.
* `public_only_iff` — which texts are accepted for public addresses only.
-/

namespace Hdns.Ports.Resolvers

open Hdns.Verified
open Hdns.Verified.GoString
open Hdns.Ports.Schema
open Hdns.Ports.Consensus

/-! ## The validators -/

/-- `ValidateIpv4Address`. -/
def validateIpv4Address (ip : GoString) : Bool :=
  match GoIP.parseIP ip with
  | none => false
  | some addr =>
      !GoIP.isUnspecified addr && !GoIP.isPrivate addr &&
        !GoIP.isLoopback addr && !GoIP.isMulticast addr &&
        (GoIP.to4 addr).isSome

/-- `ValidateIpv6Address`.  `To16` of a parsed address is never nil. -/
def validateIpv6Address (ip : GoString) : Bool :=
  match GoIP.parseIP ip with
  | none => false
  | some addr =>
      !GoIP.isUnspecified addr && !GoIP.isLoopback addr &&
        !GoIP.isMulticast addr && (GoIP.to4 addr).isNone

/-- A text is only accepted for the address it parses to. -/
private theorem parse_of_accepted {s : GoString} {p : GoIP.IP → Bool}
    (h : (match GoIP.parseIP s with
      | none => false
      | some addr => p addr) = true) :
    ∃ addr, GoIP.parseIP s = some addr ∧ p addr = true := by
  cases hparse : GoIP.parseIP s with
  | none => simp [hparse] at h
  | some addr =>
      rw [hparse] at h
      exact ⟨addr, rfl, h⟩

theorem validateIpv4Address_parse {s : GoString}
    (h : validateIpv4Address s = true) :
    ∃ addr, GoIP.parseIP s = some addr ∧ (GoIP.to4 addr).isSome = true := by
  obtain ⟨addr, hparse, haddr⟩ := parse_of_accepted h
  simp only [Bool.and_eq_true] at haddr
  exact ⟨addr, hparse, haddr.2⟩

theorem validateIpv6Address_parse {s : GoString}
    (h : validateIpv6Address s = true) :
    ∃ addr, GoIP.parseIP s = some addr ∧ (GoIP.to4 addr).isNone = true := by
  obtain ⟨addr, hparse, haddr⟩ := parse_of_accepted h
  simp only [Bool.and_eq_true] at haddr
  exact ⟨addr, hparse, haddr.2⟩

/-! ## HTTP resolvers -/

/-- The body of a response: its bytes, and the error the stream ends with if it
breaks off behind them. -/
structure Body where
  bytes : GoString
  breaks : Option GoError

/-- `io.ReadAll(io.LimitReader(body, n))`. -/
def readLimited (n : Nat) (body : Body) : Except GoError GoString :=
  if n ≤ body.bytes.length then .ok (body.bytes.take n)
  else
    match body.breaks with
    | none => .ok body.bytes
    | some err => .error err

/-- `http.NewRequest` and `http.DefaultClient.Do`. -/
structure Web where
  newRequest : GoString → Except GoError Unit
  get : GoString → Except GoError Body

/-- What the two functions have in common. -/
def resolveText (limit : Nat) (validate : GoString → Bool) (kind : GoString)
    (web : Web) (url : GoString) : Except GoError GoString := do
  (web.newRequest url).mapError
    (.because (lit "failed to create request for " ++ url))
  let body ← (web.get url).mapError
    (.because (lit "failed to get public " ++ kind ++ lit " from " ++ url))
  let bytes ← (readLimited limit body).mapError
    (.because (lit "failed to read response from " ++ url))
  let addr := bytes.trimSpace
  if validate addr then .ok addr
  else .error (.newError (lit "invalid " ++ kind ++ lit " address " ++ addr ++
    lit " from " ++ url))

/-- `resolveIPv4Address`. -/
def resolveIPv4Address : Web → GoString → Except GoError GoString :=
  resolveText 15 validateIpv4Address "IP"

/-- `resolveIPv6Address`. -/
def resolveIPv6Address : Web → GoString → Except GoError GoString :=
  resolveText 45 validateIpv6Address "IPv6"

section ResolveText

variable {limit : Nat} {validate : GoString → Bool} {kind : GoString}
  {web : Web} {url : GoString}

theorem resolveText_eq_ok {addr : GoString} :
    resolveText limit validate kind web url = .ok addr ↔
      web.newRequest url = .ok () ∧ ∃ body bytes, web.get url = .ok body ∧
        readLimited limit body = .ok bytes ∧ addr = bytes.trimSpace ∧
        validate addr = true := by
  simp only [resolveText, Prog.except_bind_eq_ok, Prog.mapError_eq_ok]
  constructor
  · rintro ⟨_, hrequest, body, hget, bytes, hread, haccepted⟩
    split at haccepted
    · next hvalidate =>
      obtain rfl := Except.ok.inj haccepted
      exact ⟨hrequest, body, bytes, hget, hread, rfl, hvalidate⟩
    · cases haccepted
  · rintro ⟨hrequest, body, bytes, hget, hread, rfl, hvalidate⟩
    exact ⟨(), hrequest, body, hget, bytes, hread, if_pos hvalidate⟩

/-- What is returned is the whole body, trimmed, which is accepted itself. -/
def WholeBody (validate : GoString → Bool) (web : Web) (url : GoString)
    (result : Except GoError GoString) : Prop :=
  ∀ addr, result = .ok addr → ∃ body, web.get url = .ok body ∧
    addr = body.bytes.trimSpace ∧ validate body.bytes.trimSpace = true

/-- Where the bytes that are read are accepted, nothing but white space is left
unread. -/
def NothingCut (limit : Nat) (validate : GoString → Bool) (web : Web)
    (url : GoString) : Prop :=
  web.newRequest url = .ok () → ∀ body, web.get url = .ok body →
    limit < body.bytes.length →
    validate (trimSpace (body.bytes.take limit)) = true →
      trimSpace (body.bytes.drop limit) = []

/-- **Bounded reading.**  For a validator of ASCII texts that are not empty. -/
theorem resolveText_whole_iff
    (hvalid : ∀ s, validate s = true → s ≠ [] ∧ ∀ b ∈ s, b < 0x80) :
    WholeBody validate web url (resolveText limit validate kind web url) ↔
      NothingCut limit validate web url := by
  have hsplit : ∀ body : Body,
      body.bytes.take limit ++ body.bytes.drop limit = body.bytes :=
    fun body => List.take_append_drop limit body.bytes
  constructor
  · intro h hrequest body hget hlong haccepted
    obtain ⟨hne, hascii⟩ := hvalid _ haccepted
    have hread : readLimited limit body = .ok (body.bytes.take limit) :=
      if_pos (Nat.le_of_lt hlong)
    obtain ⟨body', hget', haddr, -⟩ := h _ (resolveText_eq_ok.mpr
      ⟨hrequest, body, _, hget, hread, rfl, haccepted⟩)
    obtain rfl := Except.ok.inj (hget.symm.trans hget')
    rw [← trimSpace_append_iff hne hascii, hsplit, haddr]
  · intro h addr hresolve
    obtain ⟨hrequest, body, bytes, hget, hread, rfl, haccepted⟩ :=
      resolveText_eq_ok.mp hresolve
    obtain ⟨hne, hascii⟩ := hvalid _ haccepted
    have hwhole : bytes.trimSpace = body.bytes.trimSpace := by
      unfold readLimited at hread
      split at hread
      · obtain rfl := Except.ok.inj hread
        by_cases hlong : limit < body.bytes.length
        · have hrest := h hrequest body hget hlong haccepted
          rw [← (trimSpace_append_iff hne hascii).mpr hrest, hsplit]
        · rw [List.take_of_length_le (Nat.le_of_not_lt hlong)]
      · split at hread
        · rw [Except.ok.inj hread]
        · cases hread
    exact ⟨body, hget, hwhole, hwhole ▸ haccepted⟩

end ResolveText

/-- A parsed text is not empty and consists of ASCII bytes. -/
theorem ascii_of_parse {s : GoString} {addr : GoIP.IP}
    (h : GoIP.parseIP s = some addr) : s ≠ [] ∧ ∀ b ∈ s, b < 0x80 := by
  constructor
  · rintro rfl
    cases h
  · intro b hb
    rcases GoIP.bytes_of_parseIP h b hb with hhex | rfl | rfl
    · exact GoIP.lt_of_isHex hhex
    · decide
    · decide

theorem validateIpv4Address_ascii (s : GoString)
    (h : validateIpv4Address s = true) : s ≠ [] ∧ ∀ b ∈ s, b < 0x80 := by
  obtain ⟨addr, hparse, -⟩ := validateIpv4Address_parse h
  exact ascii_of_parse hparse

theorem validateIpv6Address_ascii (s : GoString)
    (h : validateIpv6Address s = true) : s ≠ [] ∧ ∀ b ∈ s, b < 0x80 := by
  obtain ⟨addr, hparse, -⟩ := validateIpv6Address_parse h
  exact ascii_of_parse hparse

/-- **When a bounded prefix is as good as the body.**  For every resolver: what
is returned is the whole body, trimmed, exactly if nothing but white space is
left unread behind an accepted prefix. -/
theorem whole_body_iff (web : Web) (url : GoString) :
    (WholeBody validateIpv4Address web url (resolveIPv4Address web url) ↔
      NothingCut 15 validateIpv4Address web url) ∧
    (WholeBody validateIpv6Address web url (resolveIPv6Address web url) ↔
      NothingCut 45 validateIpv6Address web url) :=
  ⟨resolveText_whole_iff validateIpv4Address_ascii,
    resolveText_whole_iff validateIpv6Address_ascii⟩

/-- A server that answers with a text. -/
private def serving (text : GoString) : Web :=
  ⟨fun _ => .ok (), fun _ => .ok ⟨text, none⟩⟩

private def longV4 : GoString := "100.100.100.1001"

private def longV6 : GoString :=
  "2001:0db8:1111:2222:3333:4444:123.123.123.1234"

/-- A text of one digit too many is taken for the address without it. -/
theorem cut_addresses_are_accepted :
    (validateIpv4Address longV4 = false ∧
      resolveIPv4Address (serving longV4) "http://ip" =
        .ok "100.100.100.100" ∧
      ¬WholeBody validateIpv4Address (serving longV4) "http://ip"
        (resolveIPv4Address (serving longV4) "http://ip")) ∧
    validateIpv6Address longV6 = false ∧
      resolveIPv6Address (serving longV6) "http://ip" =
        .ok "2001:0db8:1111:2222:3333:4444:123.123.123.123" ∧
      ¬WholeBody validateIpv6Address (serving longV6) "http://ip"
        (resolveIPv6Address (serving longV6) "http://ip") := by
  refine ⟨⟨by decide, by decide +kernel, fun h => ?_⟩, by decide,
    by decide +kernel, fun h => ?_⟩
  · obtain ⟨body, hget, -, haccepted⟩ := h "100.100.100.100" (by decide +kernel)
    obtain rfl := Except.ok.inj hget
    exact absurd haccepted (by decide +kernel)
  · obtain ⟨body, hget, -, haccepted⟩ :=
      h "2001:0db8:1111:2222:3333:4444:123.123.123.123" (by decide +kernel)
    obtain rfl := Except.ok.inj hget
    exact absurd haccepted (by decide +kernel)

/-! ## DNS resolvers -/

/-- The query types `resolveViaDNS` looks at. -/
inductive QType
  | a | aaaa | txt | other
  deriving DecidableEq, Repr

/-- A record of the answer section: the text of its address, or its strings. -/
inductive Answer
  | a (ip : GoString)
  | aaaa (ip : GoString)
  | txt (strings : List GoString)
  | other
  deriving DecidableEq, Repr

/-- `strings.Trim(s, "\"")`. -/
def trimQuotes (s : GoString) : GoString :=
  ((s.dropWhile (· = 0x22)).reverse.dropWhile (· = 0x22)).reverse

/-- The `switch` of the loop over the answer section. -/
def Answer.read (qtype : QType) (addr : GoString) : Answer → GoString
  | .a ip => if qtype = .a then ip else addr
  | .aaaa ip => if qtype = .aaaa then ip else addr
  | .txt strings =>
      if qtype = .txt ∧ strings ≠ [] then
        trimQuotes (trimSpace strings.flatten)
      else addr
  | .other => addr

/-- The loop over the answer section, which ends at the first text. -/
def readAnswers (qtype : QType) : List Answer → GoString
  | [] => []
  | r :: rs =>
      let addr := r.read qtype []
      if addr ≠ [] then addr else readAnswers qtype rs

/-- A parsed resolver entry: its scheme in lower case, its server with the
port, and its text. -/
structure Url where
  scheme : GoString
  server : GoString
  text : GoString

/-- `url.Parse`, the verb `%q`, the requests, and the query of a DNS resolver,
which ends with the type asked for and the answers of a response without an
error. -/
structure Network where
  parse : GoString → Except GoError Url
  quote : GoString → GoString
  web : Web
  exchange : Url → Bool → Except GoError (QType × List Answer)

/-- `resolveViaDNS`. -/
def resolveViaDNS (net : Network) (u : Url) (wantIPv6 : Bool) :
    Except GoError GoString := do
  let (qtype, answer) ← net.exchange u wantIPv6
  let addr := readAnswers qtype answer
  if addr = [] then
    .error (.newError (lit "dns query to " ++ u.server ++
      lit " returned no matching records"))
  else if wantIPv6 then
    if validateIpv6Address addr then .ok addr
    else .error (.newError (lit "invalid IPv6 address " ++ addr ++
      lit " from dns " ++ u.text))
  else if validateIpv4Address addr then .ok addr
  else .error (.newError (lit "invalid IPv4 address " ++ addr ++
    lit " from dns " ++ u.text))

/-- `resolveEntry`. -/
def resolveEntry (net : Network) (entry : GoString) (wantIPv6 : Bool) :
    Except GoError GoString := do
  let u ← (net.parse entry).mapError
    (.because (lit "invalid resolver entry " ++ entry))
  if u.scheme = "" ∨ u.scheme = "http" ∨ u.scheme = "https" then
    if wantIPv6 then resolveIPv6Address net.web entry
    else resolveIPv4Address net.web entry
  else if u.scheme = "dns" then resolveViaDNS net u wantIPv6
  else .error (.newError (lit "unsupported resolver scheme " ++
    net.quote u.scheme ++ lit " in " ++ entry))

/-- The validator of the family that is asked for. -/
def accepted (wantIPv6 : Bool) : GoString → Bool :=
  if wantIPv6 then validateIpv6Address else validateIpv4Address

theorem resolveViaDNS_accepted {net : Network} {u : Url} {wantIPv6 : Bool}
    {addr : GoString} (h : resolveViaDNS net u wantIPv6 = .ok addr) :
    accepted wantIPv6 addr = true := by
  simp only [resolveViaDNS, Prog.except_bind_eq_ok] at h
  obtain ⟨⟨qtype, answer⟩, -, h⟩ := h
  cases wantIPv6 with
  | false =>
      simp only [Bool.false_eq_true, if_false] at h
      split at h
      · cases h
      · split at h
        · next hvalid => exact Except.ok.inj h ▸ hvalid
        · cases h
  | true =>
      simp only [if_true] at h
      split at h
      · cases h
      · split at h
        · next hvalid => exact Except.ok.inj h ▸ hvalid
        · cases h

/-- What a resolver hands on is accepted for the family asked for. -/
theorem resolveEntry_accepted {net : Network} {entry addr : GoString}
    {wantIPv6 : Bool} (h : resolveEntry net entry wantIPv6 = .ok addr) :
    accepted wantIPv6 addr = true := by
  simp only [resolveEntry, Prog.except_bind_eq_ok] at h
  obtain ⟨u, -, h⟩ := h
  split at h
  · cases wantIPv6 with
    | false =>
        obtain ⟨-, body, bytes, -, -, -, hvalid⟩ := resolveText_eq_ok.mp h
        exact hvalid
    | true =>
        obtain ⟨-, body, bytes, -, -, -, hvalid⟩ := resolveText_eq_ok.mp h
        exact hvalid
  · split at h
    · exact resolveViaDNS_accepted h
    · cases h

/-- Of the outcomes of the resolvers the consensus picks an accepted one. -/
theorem consensus_accepted (net : Network) (resolvers : List GoString)
    (wantIPv6 : Bool) (family : GoString) (order : List GoString)
    (addr : GoString) :
    let outcomes := resolvers.map (resolveEntry net · wantIPv6)
    (tally outcomes).counts.Ranges order →
    resolveWithConsensus family outcomes order = .ok addr →
      accepted wantIPv6 addr = true := by
  intro outcomes horder h
  rcases resolveWithConsensus_cases family horder with
    ⟨-, err, herr⟩ | ⟨winner, hwinner, hok⟩
  · rw [herr] at h
    cases h
  · obtain rfl := Except.ok.inj (hok.symm.trans h)
    obtain ⟨outcome, houtcome, hto⟩ := List.mem_filterMap.mp hwinner.1
    obtain ⟨entry, -, rfl⟩ := List.mem_map.mp houtcome
    cases hresult : resolveEntry net entry wantIPv6 with
    | error err =>
        rw [hresult] at hto
        cases hto
    | ok a =>
        rw [hresult] at hto
        obtain rfl := Option.some.inj hto
        exact resolveEntry_accepted hresult

/-! ## Accepted texts as record values -/

/-- What is accepted for a family is a text of that family which fits its
column, and nothing is accepted for both. -/
structure Usable (s : GoString) : Prop where
  ipv4 : validateIpv4Address s = true →
    GoIP.Dotted s ∧ GoIP.colon ∉ s ∧ s.length ≤ 15
  ipv6 : validateIpv6Address s = true → GoIP.IPv6Text s ∧ s.length ≤ 39
  disjoint : ¬(validateIpv4Address s = true ∧ validateIpv6Address s = true)

/-- A public IPv4 address written as an IPv6 address, as in
`::ffff:192.0.2.1`. -/
def MappedText (s : GoString) : Prop :=
  GoIP.colon ∈ s ∧ ∃ addr, GoIP.parseIP s = some addr ∧
    (GoIP.to4 addr).isSome = true ∧ GoIP.isUnspecified addr = false ∧
    GoIP.isPrivate addr = false ∧ GoIP.isLoopback addr = false ∧
    GoIP.isMulticast addr = false

/-- A unicast IPv6 address whose groups are written out in front of a dotted
quad, which takes up to 45 letters. -/
def LongQuadText (s : GoString) : Prop :=
  GoIP.dot ∈ s ∧ 39 < s.length ∧ ∃ addr, GoIP.parseIP s = some addr ∧
    (GoIP.to4 addr).isNone = true ∧ GoIP.isUnspecified addr = false ∧
    GoIP.isLoopback addr = false ∧ GoIP.isMulticast addr = false

theorem mappedText_iff (s : GoString) :
    MappedText s ↔ GoIP.colon ∈ s ∧ validateIpv4Address s = true := by
  unfold MappedText validateIpv4Address
  cases GoIP.parseIP s with
  | none => simp
  | some addr =>
      simp only [Option.some.injEq, exists_eq_left', Bool.and_eq_true,
        Bool.not_eq_true']
      tauto

theorem longQuadText_iff (s : GoString) :
    LongQuadText s ↔ GoIP.dot ∈ s ∧ 39 < s.length ∧
      validateIpv6Address s = true := by
  unfold LongQuadText validateIpv6Address
  cases GoIP.parseIP s with
  | none => simp
  | some addr =>
      simp only [Option.some.injEq, exists_eq_left', Bool.and_eq_true,
        Bool.not_eq_true']
      tauto

/-- **Which texts are usable if they are accepted.**  All but the mapped forms
of IPv4 addresses and the IPv6 texts that are too long because they end with a
dotted quad. -/
theorem usable_iff (s : GoString) :
    Usable s ↔ ¬MappedText s ∧ ¬LongQuadText s := by
  rw [mappedText_iff, longQuadText_iff]
  constructor
  · intro h
    refine ⟨fun ⟨hcolon, h4⟩ => (h.ipv4 h4).2.1 hcolon,
      fun ⟨_, hlong, h6⟩ => ?_⟩
    exact absurd (h.ipv6 h6).2 (Nat.not_le_of_lt hlong)
  · rintro ⟨hmapped, hquad⟩
    refine ⟨fun h4 => ?_, fun h6 => ?_, ?_⟩
    · obtain ⟨addr, hparse, -⟩ := validateIpv4Address_parse h4
      rcases GoIP.parseIP_cases hparse with ⟨hs, -⟩ | ⟨hcolon, -⟩
      · exact ⟨hs, hs.no_colon, hs.length_le⟩
      · exact absurd ⟨hcolon, h4⟩ hmapped
    · obtain ⟨addr, hparse, hto4⟩ := validateIpv6Address_parse h6
      rcases GoIP.parseIP_cases hparse with ⟨-, hsome⟩ | ⟨-, hs⟩
      · simp [Option.isNone_iff_eq_none.mp hto4] at hsome
      · refine ⟨hs, ?_⟩
        by_cases hdot : GoIP.dot ∈ s
        · by_contra hlong
          exact hquad ⟨hdot, Nat.lt_of_not_le hlong, h6⟩
        · exact hs.length_le hdot
    · rintro ⟨h4, h6⟩
      obtain ⟨addr, hparse, hsome⟩ := validateIpv4Address_parse h4
      obtain ⟨addr', hparse', hnone⟩ := validateIpv6Address_parse h6
      obtain rfl := Option.some.inj (hparse.symm.trans hparse')
      simp [Option.isNone_iff_eq_none.mp hnone] at hsome

private def mapped : GoString := "::ffff:8.8.8.8"

private def longQuad : GoString :=
  "2001:0db8:1111:2222:3333:4444:123.123.123.123"

/-- The mapped form of an IPv4 address is accepted for IPv4, and an IPv6 text
of 45 letters for IPv6; an HTTP resolver can hand on both. -/
theorem mapped_and_long_texts_are_accepted :
    (validateIpv4Address mapped = true ∧ GoIP.colon ∈ mapped ∧
      resolveIPv4Address (serving mapped) "http://ip" = .ok mapped ∧
      ¬Usable mapped) ∧
    validateIpv6Address longQuad = true ∧ longQuad.length = 45 ∧
      resolveIPv6Address (serving longQuad) "http://ip" = .ok longQuad ∧
      ¬Usable longQuad := by
  refine ⟨⟨by decide, by decide, by decide +kernel, fun h => ?_⟩, by decide,
    by decide, by decide +kernel, fun h => ?_⟩
  · exact (h.ipv4 (by decide)).2.1 (by decide)
  · exact absurd (h.ipv6 (by decide)).2 (by decide)

/-! ## Accepted texts as public addresses -/

/-- None of the classes that are not routed on the internet. -/
structure Public (addr : GoIP.IP) : Prop where
  specified : GoIP.isUnspecified addr = false
  remote : GoIP.isLoopback addr = false
  unicast : GoIP.isMulticast addr = false
  routed : GoIP.isPrivate addr = false

/-- What the validators accept of a text is a public address, and no form of
an IPv4 address is accepted for IPv6. -/
structure PublicOnly (s : GoString) : Prop where
  accepted : ∀ addr, GoIP.parseIP s = some addr →
    validateIpv4Address s = true ∨ validateIpv6Address s = true → Public addr
  native : validateIpv6Address s = true → ¬GoIP.Dotted s ∧
    ∀ addr, GoIP.parseIP s = some addr → GoIP.to4 addr = none

/-- A unique local address: the prefix `fc00::/7`. -/
def UniqueLocal (addr : GoIP.IP) : Prop :=
  addr.headD 0 = 0xFC ∨ addr.headD 0 = 0xFD

theorem uniqueLocal_iff (addr : GoIP.IP) :
    UniqueLocal addr ↔ addr.headD 0 &&& 0xFE = 0xFC := by
  have hbytes : ∀ b : UInt8, b = 0xFC ∨ b = 0xFD ↔ b &&& 0xFE = 0xFC := by
    apply forall_byte
    decide +kernel
  exact hbytes (addr.headD 0)

/-- A unique local address is of no other class. -/
theorem UniqueLocal.classes {addr : GoIP.IP} (h : UniqueLocal addr) :
    GoIP.to4 addr = none ∧ GoIP.isUnspecified addr = false ∧
      GoIP.isLoopback addr = false ∧ GoIP.isMulticast addr = false ∧
      GoIP.isPrivate addr = true := by
  have hhead : addr.headD 0 ≠ 0 ∧ addr.headD 0 ≠ 0xFF := by
    rcases h with h | h <;> rw [h] <;> decide
  have hzero : ∀ rest : GoIP.IP, addr ≠ 0 :: rest := by
    rintro rest rfl
    exact hhead.1 rfl
  have hto4 : GoIP.to4 addr = none := by
    refine if_neg fun htake => ?_
    cases addr with
    | nil => exact hhead.1 rfl
    | cons b bs =>
        rw [List.take_succ_cons] at htake
        exact hzero bs (congrArg (· :: bs) (List.cons.inj htake).1)
  have hprivate := (uniqueLocal_iff addr).mp h
  refine ⟨hto4, ?_, ?_, ?_, ?_⟩
  · simp only [GoIP.isUnspecified, Bool.or_eq_false_iff, decide_eq_false_iff_not]
    exact ⟨hzero _, hzero _⟩
  · simp only [GoIP.isLoopback, hto4, decide_eq_false_iff_not]
    exact hzero _
  · simpa only [GoIP.isMulticast, hto4, beq_eq_false_iff_ne] using hhead.2
  · simpa only [GoIP.isPrivate, hto4, beq_iff_eq] using hprivate

/-- **Which texts are accepted for public addresses only.**  All but those of
unique local addresses, which the validator for IPv6 lets pass. -/
theorem public_only_iff (s : GoString) :
    PublicOnly s ↔
      ¬∃ addr, GoIP.parseIP s = some addr ∧ UniqueLocal addr := by
  constructor
  · rintro h ⟨addr, hparse, hlocal⟩
    obtain ⟨hto4, hspecified, hloopback, hmulticast, hprivate⟩ :=
      hlocal.classes
    have haccepted : validateIpv6Address s = true := by
      simp [validateIpv6Address, hparse, hspecified, hloopback, hmulticast,
        hto4]
    have hrouted := (h.accepted addr hparse (.inr haccepted)).routed
    rw [hprivate] at hrouted
    cases hrouted
  · intro h
    constructor
    · intro addr hparse haccepted
      have hlocal : ¬UniqueLocal addr := fun hlocal => h ⟨addr, hparse, hlocal⟩
      rcases haccepted with h4 | h6
      · simp only [validateIpv4Address, hparse, Bool.and_eq_true,
          Bool.not_eq_true'] at h4
        obtain ⟨⟨⟨⟨hspecified, hprivate⟩, hloopback⟩, hmulticast⟩, -⟩ := h4
        exact ⟨hspecified, hloopback, hmulticast, hprivate⟩
      · simp only [validateIpv6Address, hparse, Bool.and_eq_true,
          Bool.not_eq_true', Option.isNone_iff_eq_none] at h6
        obtain ⟨⟨⟨hspecified, hloopback⟩, hmulticast⟩, hto4⟩ := h6
        refine ⟨hspecified, hloopback, hmulticast, ?_⟩
        rw [uniqueLocal_iff] at hlocal
        simpa only [GoIP.isPrivate, hto4, beq_eq_false_iff_ne] using hlocal
    · intro h6
      obtain ⟨addr, hparse, hnone⟩ := validateIpv6Address_parse h6
      have hto4 : GoIP.to4 addr = none := Option.isNone_iff_eq_none.mp hnone
      refine ⟨fun hdotted => ?_, fun addr' hparse' => ?_⟩
      · rcases GoIP.parseIP_cases hparse with ⟨-, hsome⟩ | ⟨hcolon, -⟩
        · rw [hto4] at hsome
          cases hsome
        · exact hdotted.no_colon hcolon
      · obtain rfl := Option.some.inj (hparse.symm.trans hparse')
        exact hto4

private def uniqueLocal : GoString := "fd12:3456:789a::1"

/-- A unique local address is accepted for IPv6, also from a resolver. -/
theorem unique_local_address_is_accepted :
    validateIpv6Address uniqueLocal = true ∧
      resolveIPv6Address (serving uniqueLocal) "http://ip" = .ok uniqueLocal ∧
      ¬PublicOnly uniqueLocal := by
  refine ⟨by decide, by decide +kernel, fun h => ?_⟩
  have hrouted := (h.accepted _ rfl (.inr (by decide))).routed
  exact absurd hrouted (by decide)

end Hdns.Ports.Resolvers

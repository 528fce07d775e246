import Hdns.Verified.GoString
import Mathlib.Data.List.TakeWhile

/-!
# Textual IP addresses

`net.ParseIP` and the predicates of `net.IP`.  An address is its 16 bytes; an
IPv4 address is held in its mapped form, so a text with colons can parse to one.

## Main results

* `dotted_of_parse` — what the IPv4 parser accepts is four decimal octets.
* `ipv6Text_of_parse` — what the IPv6 parser accepts is eight groups of hex
  digits, or fewer around one `::`, the last two of them possibly written as a
  dotted quad.
-/

namespace Hdns.Verified

namespace GoIP

open GoString

def colon : UInt8 := 0x3A
def dot : UInt8 := 0x2E
def percent : UInt8 := 0x25

def isDigit (b : UInt8) : Bool := 0x30 ≤ b && b ≤ 0x39

def isHex (b : UInt8) : Bool :=
  isDigit b || (0x61 ≤ b && b ≤ 0x66) || (0x41 ≤ b && b ≤ 0x46)

/-- The value of a hex digit. -/
def hexDigit (b : UInt8) : Nat :=
  if b ≤ 0x39 then b.toNat - 0x30
  else if 0x61 ≤ b then b.toNat - 0x61 + 10
  else b.toNat - 0x41 + 10

/-- `net.IP`, 16 bytes. -/
abbrev IP := List UInt8

/-! ## The parsers -/

/-- `parseIPv4Fields`: the octets so far, and the value and the number of
digits of the one at hand, which is zero at the start and behind a dot. -/
def parseIPv4Fields (fields : List UInt8) (val digLen : Nat) :
    GoString → Option (List UInt8)
  | [] => if fields.length < 3 then none else some (fields ++ [.ofNat val])
  | b :: s =>
      if isDigit b then
        if digLen = 1 ∧ val = 0 then none
        else
          let val := val * 10 + (b.toNat - 0x30)
          if 255 < val then none
          else parseIPv4Fields fields val (digLen + 1) s
      else if b = dot then
        if digLen = 0 ∨ s = [] then none
        else if fields.length = 3 then none
        else parseIPv4Fields (fields ++ [.ofNat val]) 0 0 s
      else none

/-- The loop of `parseIPv6`, for at most `n` more groups: the bytes so far and
the position of the ellipsis among them.  It ends with the text behind. -/
def parseIPv6Loop :
    Nat → IP → Option Nat → GoString → Option (IP × Option Nat × GoString)
  | 0, ip, ellipsis, s => some (ip, ellipsis, s)
  | n + 1, ip, ellipsis, s =>
      let digits := s.takeWhile isHex
      if digits = [] ∨ 4 < digits.length then none
      else
        let acc := digits.foldl (fun acc b => acc * 16 + hexDigit b) 0
        match s.dropWhile isHex with
        | [] => some (ip ++ [.ofNat (acc / 256), .ofNat acc], ellipsis, [])
        | c :: s' =>
            if c = dot then
              if ellipsis = none ∧ ip.length ≠ 12 then none
              else if 16 < ip.length + 4 then none
              else (parseIPv4Fields [] 0 0 s).map fun fields =>
                (ip ++ fields, ellipsis, [])
            else if c ≠ colon then none
            else
              let ip := ip ++ [.ofNat (acc / 256), .ofNat acc]
              match s' with
              | [] => none
              | d :: s'' =>
                  if d = colon then
                    if ellipsis.isSome then none
                    else if s'' = [] then some (ip, some ip.length, [])
                    else parseIPv6Loop n ip (some ip.length) s''
                  else parseIPv6Loop n ip ellipsis s'

/-- The end of `parseIPv6`: the ellipsis stands for at least one group. -/
def expand : IP × Option Nat × GoString → Option IP
  | (ip, ellipsis, s) =>
      if s ≠ [] then none
      else if ip.length < 16 then
        ellipsis.map fun i =>
          ip.take i ++ List.replicate (16 - ip.length) 0 ++ ip.drop i
      else if ellipsis.isSome then none
      else some ip

/-- `parseIPv6` for a text without a zone. -/
def parseIPv6 (s : GoString) : Option IP :=
  match s with
  | 0x3A :: 0x3A :: [] => some (List.replicate 16 0)
  | 0x3A :: 0x3A :: s => (parseIPv6Loop 8 [] (some 0) s).bind expand
  | s => (parseIPv6Loop 8 [] none s).bind expand

/-- The first twelve bytes of a mapped IPv4 address. -/
def v4InV6Prefix : IP := List.replicate 10 0 ++ [0xFF, 0xFF]

/-- `net.ParseIP`: the first dot or colon decides, and a zone is not allowed. -/
def parseIP (s : GoString) : Option IP :=
  if percent ∈ s then none
  else
    match s.find? fun b => b = dot ∨ b = colon with
    | none => none
    | some b =>
        if b = dot then
          (parseIPv4Fields [] 0 0 s).map fun fields => v4InV6Prefix ++ fields
        else parseIPv6 s

/-! ## The predicates -/

/-- `IP.To4`. -/
def to4 (ip : IP) : Option IP :=
  if ip.take 12 = v4InV6Prefix then some (ip.drop 12) else none

/-- `IP.IsUnspecified`. -/
def isUnspecified (ip : IP) : Bool :=
  ip = List.replicate 16 0 || ip = v4InV6Prefix ++ List.replicate 4 0

/-- `IP.IsLoopback`. -/
def isLoopback (ip : IP) : Bool :=
  match to4 ip with
  | some ip4 => ip4.headD 0 == 127
  | none => ip = List.replicate 15 0 ++ [1]

/-- `IP.IsPrivate`. -/
def isPrivate (ip : IP) : Bool :=
  match to4 ip with
  | some ip4 =>
      ip4.headD 0 == 10 ||
        (ip4.headD 0 == 172 && ip4.getD 1 0 &&& 0xF0 == 16) ||
        (ip4.headD 0 == 192 && ip4.getD 1 0 == 168)
  | none => ip.headD 0 &&& 0xFE == 0xFC

/-- `IP.IsMulticast`. -/
def isMulticast (ip : IP) : Bool :=
  match to4 ip with
  | some ip4 => ip4.headD 0 &&& 0xF0 == 0xE0
  | none => ip.headD 0 == 0xFF

example : parseIP (lit "8.8.8.8") = parseIP (lit "::ffff:8.8.8.8") := by
  decide

example : parseIP (lit "1.2.3.04") = none := by decide

example : parseIP (lit "2001:db8::1") =
    some [0x20, 1, 0xD, 0xB8, 0, 0, 0, 0, 0, 0, 0, 0, 0, 0, 0, 1] := by decide

example : parseIP (lit "1:2:3:4:5:6:7::8") = none := by decide

/-! ## The grammars -/

/-- The value of decimal digits. -/
def decimal (p : GoString) : Nat :=
  p.foldl (fun val b => val * 10 + (b.toNat - 0x30)) 0

/-- Decimal digits for a byte, without leading zeros. -/
structure Octet (p : GoString) : Prop where
  ne_nil : p ≠ []
  digits : ∀ b ∈ p, isDigit b = true
  short : p.length ≤ 3
  byte : decimal p ≤ 255
  canonical : 1 < p.length → p.head? ≠ some 0x30

/-- A dotted-decimal IPv4 text. -/
def Dotted (s : GoString) : Prop :=
  ∃ octets : List GoString, octets.length = 4 ∧ (∀ p ∈ octets, Octet p) ∧
    s = GoString.join octets [dot]

/-- One to four hex digits. -/
structure Group (p : GoString) : Prop where
  ne_nil : p ≠ []
  digits : ∀ b ∈ p, isHex b = true
  short : p.length ≤ 4

/-- Groups separated by colons, `n` of them; at the end a dotted quad may stand
for two where `quad` holds. -/
inductive Groups (quad : Prop) : Nat → GoString → Prop where
  | group {p : GoString} (hp : Group p) : Groups quad 1 p
  | dotted {s : GoString} (hquad : quad) (hs : Dotted s) : Groups quad 2 s
  | cons {p s : GoString} {n : Nat} (hp : Group p) (hs : Groups quad n s) :
      Groups quad (n + 1) (p ++ colon :: s)

/-- Groups on one side of an ellipsis. -/
def Side (quad : Prop) (n : Nat) (s : GoString) : Prop :=
  n = 0 ∧ s = [] ∨ Groups quad n s

/-- An IPv6 text. -/
def IPv6Text (s : GoString) : Prop :=
  Groups True 8 s ∨ ∃ l r nₗ nᵣ, s = l ++ colon :: colon :: r ∧
    Side False nₗ l ∧ Side True nᵣ r ∧ nₗ + nᵣ ≤ 7

/-! ## What the IPv4 parser accepts -/

/-- The octet at hand: `val` and `digLen` are those of its digits. -/
private structure AtHand (p : GoString) (val digLen : Nat) : Prop where
  val : val = decimal p
  digLen : digLen = p.length
  digits : ∀ b ∈ p, isDigit b = true
  byte : decimal p ≤ 255
  canonical : 1 < p.length → p.head? ≠ some 0x30
  short : p.length ≤ 3
  two : p.length = 2 → 10 ≤ decimal p
  three : p.length = 3 → 100 ≤ decimal p

private theorem atHand_nil : AtHand [] 0 0 :=
  ⟨rfl, rfl, nofun, Nat.zero_le _, nofun, Nat.zero_le _, nofun, nofun⟩

private theorem AtHand.octet {p : GoString} {val digLen : Nat}
    (h : AtHand p val digLen) (hne : p ≠ []) : Octet p :=
  ⟨hne, h.digits, h.short, h.byte, h.canonical⟩

private theorem decimal_concat (p : GoString) (b : UInt8) :
    decimal (p ++ [b]) = decimal p * 10 + (b.toNat - 0x30) := by
  simp [decimal, List.foldl_append]

/-- One more digit. -/
private theorem atHand_digit {p : GoString} {val digLen : Nat} {b : UInt8}
    (h : AtHand p val digLen) (hb : isDigit b = true)
    (hzero : ¬(digLen = 1 ∧ val = 0))
    (hbyte : val * 10 + (b.toNat - 0x30) ≤ 255) :
    AtHand (p ++ [b]) (val * 10 + (b.toNat - 0x30)) (digLen + 1) := by
  have hval := h.val
  have hlen := h.digLen
  have hshort := h.short
  have htwo := h.two
  have hthree := h.three
  subst hval hlen
  have hconcat := decimal_concat p b
  have hlength : (p ++ [b]).length = p.length + 1 := List.length_append
  have hlt : p.length ≠ 3 := by
    intro heq
    have := hthree heq
    omega
  refine ⟨hconcat.symm, hlength.symm, fun c hc => ?_, by omega, ?_, by omega,
    by omega, by omega⟩
  · rcases List.mem_append.mp hc with hc | hc
    · exact h.digits c hc
    · rw [List.mem_singleton.mp hc]
      exact hb
  · intro hlong
    match p, h with
    | [], _ => cases hlong with
      | step h => cases h
    | [c], _ =>
        -- a single digit is not zero, so it is no leading zero
        intro hc
        obtain rfl : c = 0x30 := Option.some.inj hc
        exact hzero ⟨rfl, rfl⟩
    | c :: c' :: p, h => exact h.canonical (by simp)

/-- **The octets the parser reads**: those of the digits at hand and of the
text behind. -/
private theorem octets_of_fields : ∀ (s p : GoString) (fields : List UInt8)
    (val digLen : Nat) (out : List UInt8), AtHand p val digLen →
      fields.length ≤ 3 → (p = [] → s ≠ [] ∨ fields.length < 3) →
      parseIPv4Fields fields val digLen s = some out →
      out.length = 4 ∧ ∃ octets : List GoString, octets ≠ [] ∧
        fields.length + octets.length = 4 ∧ (∀ q ∈ octets, Octet q) ∧
        p ++ s = GoString.join octets [dot] := by
  intro s
  induction s with
  | nil =>
      intro p fields val digLen out hp hfields hnil hparse
      simp only [parseIPv4Fields] at hparse
      split at hparse
      · cases hparse
      · next hthree =>
        have hne : p ≠ [] := by
          intro hempty
          rcases hnil hempty with h | h
          · exact h rfl
          · exact hthree h
        obtain rfl := Option.some.inj hparse
        refine ⟨by simp; omega, [p], List.cons_ne_nil _ _, by simp; omega,
          fun q hq => ?_, by simp [GoString.join]⟩
        rw [List.mem_singleton.mp hq]
        exact hp.octet hne
  | cons b s ih =>
      intro p fields val digLen out hp hfields hnil hparse
      rw [parseIPv4Fields] at hparse
      by_cases hb : isDigit b = true
      · rw [if_pos hb] at hparse
        split at hparse
        · cases hparse
        · next hzero =>
          simp only at hparse
          split at hparse
          · cases hparse
          · next hbyte =>
            have hp' := atHand_digit hp hb hzero (by omega)
            obtain ⟨hout, octets, hne, hlength, hoctets, hjoin⟩ := ih (p ++ [b])
              fields _ _ out hp' hfields
              (fun h => absurd h (List.append_ne_nil_of_right_ne_nil _
                (List.cons_ne_nil _ _))) hparse
            exact ⟨hout, octets, hne, hlength, hoctets, by
              rw [← hjoin, List.append_assoc]
              rfl⟩
      · rw [if_neg hb] at hparse
        split at hparse
        · next hdot =>
          split at hparse
          · cases hparse
          · next hends =>
            split at hparse
            · cases hparse
            · next hroom =>
              obtain ⟨hlen, hs⟩ := not_or.mp hends
              have hp' : p ≠ [] := by
                rintro rfl
                exact hlen hp.digLen
              obtain ⟨hout, octets, hne, hlength, hoctets, hjoin⟩ := ih []
                (fields ++ [.ofNat val]) 0 0 out atHand_nil
                (by simp; omega) (fun _ => .inl hs) hparse
              rw [List.length_append, List.length_singleton] at hlength
              refine ⟨hout, p :: octets, List.cons_ne_nil _ _, ?_,
                fun q hq => ?_, ?_⟩
              · rw [List.length_cons]
                omega
              · rcases List.mem_cons.mp hq with rfl | hq
                · exact hp.octet hp'
                · exact hoctets q hq
              · rw [hdot, ← List.nil_append s, hjoin]
                cases octets with
                | nil => exact absurd rfl hne
                | cons q octets => simp [GoString.join]
        · cases hparse

theorem dotted_of_parse {s : GoString} {fields : List UInt8}
    (h : parseIPv4Fields [] 0 0 s = some fields) :
    fields.length = 4 ∧ Dotted s := by
  obtain ⟨hout, octets, _, hlength, hoctets, hjoin⟩ := octets_of_fields s [] []
    0 0 fields atHand_nil (Nat.zero_le _) (fun _ => .inr (by decide)) h
  exact ⟨hout, octets, by simpa using hlength, hoctets, hjoin⟩

/-! ## What the IPv6 parser accepts -/

/-- The digits in front of a text are a group, if there are at most four. -/
private theorem group_takeWhile {s : GoString}
    (h : ¬(s.takeWhile isHex = [] ∨ 4 < (s.takeWhile isHex).length)) :
    Group (s.takeWhile isHex) := by
  obtain ⟨hne, hlen⟩ := not_or.mp h
  exact ⟨hne, fun b hb => List.mem_takeWhile_imp hb, by omega⟩

/-- What the loop reads, where it reads the whole text: groups up to the end,
or up to an ellipsis and behind it. -/
private def Reads (ip : IP) (ellipsis : Option Nat) (s : GoString) (ip' : IP)
    (ellipsis' : Option Nat) : Prop :=
  (∃ n, Groups True n s ∧ ellipsis' = ellipsis ∧
    ip'.length = ip.length + 2 * n) ∨
  ∃ l r nₗ nᵣ, ellipsis = none ∧ s = l ++ colon :: colon :: r ∧
    Groups False nₗ l ∧ Side True nᵣ r ∧ ellipsis'.isSome = true ∧
    ip'.length = ip.length + 2 * (nₗ + nᵣ)

/-- One more group in front. -/
private theorem Reads.cons {ip : IP} {ellipsis ellipsis' : Option Nat}
    {p s : GoString} {ip' : IP} {x y : UInt8} (hp : Group p)
    (h : Reads (ip ++ [x, y]) ellipsis s ip' ellipsis') :
    Reads ip ellipsis (p ++ colon :: s) ip' ellipsis' := by
  have hlength : (ip ++ [x, y]).length = ip.length + 2 := List.length_append
  rcases h with ⟨n, hs, hellipsis, hlen⟩ |
    ⟨l, r, nₗ, nᵣ, hnone, rfl, hl, hr, hsome, hlen⟩
  · exact .inl ⟨n + 1, .cons hp hs, hellipsis, by omega⟩
  · refine .inr ⟨p ++ colon :: l, r, nₗ + 1, nᵣ, hnone, by simp, .cons hp hl,
      hr, hsome, by omega⟩

private theorem reads_of_loop : ∀ (n : Nat) (ip : IP) (ellipsis : Option Nat)
    (s : GoString) (ip' : IP) (ellipsis' : Option Nat), s ≠ [] →
      ip.length + 2 * n = 16 →
      parseIPv6Loop n ip ellipsis s = some (ip', ellipsis', []) →
      Reads ip ellipsis s ip' ellipsis' ∧ ip'.length ≤ 16 := by
  intro n
  induction n with
  | zero =>
      intro ip ellipsis s ip' ellipsis' hs hroom hloop
      simp only [parseIPv6Loop, Option.some.injEq, Prod.mk.injEq] at hloop
      exact absurd hloop.2.2 hs
  | succ n ih =>
      intro ip ellipsis s ip' ellipsis' hs hroom hloop
      have hroom' : ∀ x y, (ip ++ [x, y]).length + 2 * n = 16 := by
        intro x y
        rw [List.length_append]
        simp only [List.length_cons, List.length_nil]
        omega
      rw [parseIPv6Loop] at hloop
      simp only at hloop
      split at hloop
      · cases hloop
      · next hdigits =>
        have hgroup := group_takeWhile hdigits
        have hsplit := List.takeWhile_append_dropWhile (p := isHex) (l := s)
        split at hloop
        · next hrest =>
          -- the text ends with this group
          rw [hrest, List.append_nil] at hsplit
          simp only [Option.some.injEq, Prod.mk.injEq] at hloop
          obtain ⟨rfl, rfl, -⟩ := hloop
          exact ⟨.inl ⟨1, hsplit ▸ .group hgroup, rfl, by simp⟩,
            by simp; omega⟩
        · next c s' hrest =>
          rw [hrest] at hsplit
          split at hloop
          · -- a dotted quad in place of the last two groups
            split at hloop
            · cases hloop
            · split at hloop
              · cases hloop
              · next hfits =>
                rw [Option.map_eq_some_iff] at hloop
                obtain ⟨fields, hfields, heq⟩ := hloop
                obtain ⟨hlength, hdotted⟩ := dotted_of_parse hfields
                simp only [Prod.mk.injEq] at heq
                obtain ⟨rfl, rfl, -⟩ := heq
                exact ⟨.inl ⟨2, .dotted trivial hdotted, rfl,
                  by simp [hlength]⟩, by simp; omega⟩
          · split at hloop
            · cases hloop
            · next hcolon =>
              obtain rfl : c = colon := not_not.mp hcolon
              rw [← hsplit]
              split at hloop
              · cases hloop
              · next d s'' =>
                split at hloop
                · next hd =>
                  subst hd
                  split at hloop
                  · cases hloop
                  · next hnone =>
                    have hnone : ellipsis = none := by simpa using hnone
                    split at hloop
                    · next hends =>
                      simp only [Option.some.injEq, Prod.mk.injEq] at hloop
                      obtain ⟨rfl, rfl, -⟩ := hloop
                      refine ⟨.inr ⟨_, s'', 1, 0, hnone, rfl, .group hgroup,
                        .inl ⟨rfl, hends⟩, rfl, by simp⟩, ?_⟩
                      simp
                      omega
                    · next hmore =>
                      -- behind the ellipsis there is no second one
                      obtain ⟨hreads, hfits⟩ := ih _ _ _ _ _ hmore (hroom' _ _)
                        hloop
                      refine ⟨?_, hfits⟩
                      rcases hreads with
                        ⟨m, hm, rfl, hlen⟩ | ⟨_, _, _, _, h, _⟩
                      · refine .inr ⟨_, s'', 1, m, hnone, rfl, .group hgroup,
                          .inr hm, rfl, ?_⟩
                        rw [hlen]
                        simp
                        omega
                      · cases h
                · obtain ⟨hreads, hfits⟩ := ih _ _ _ _ _ (List.cons_ne_nil _ _)
                    (hroom' _ _) hloop
                  exact ⟨.cons hgroup hreads, hfits⟩

/-- An address that fits, with the ellipsis where it is needed. -/
private theorem expand_eq_some {ip out : IP} {ellipsis : Option Nat}
    {s : GoString} (h : expand (ip, ellipsis, s) = some out) :
    s = [] ∧ (ellipsis.isSome = true → ip.length < 16) ∧
      (ellipsis = none → 16 ≤ ip.length) := by
  simp only [expand] at h
  split at h
  · cases h
  · next hs =>
    refine ⟨not_not.mp hs, ?_, ?_⟩
    · intro hsome
      split at h
      · next hlt => exact hlt
      · cases h
    · rintro rfl
      split at h
      · cases h
      · next hlt => omega

theorem ipv6Text_of_parse {s : GoString} {ip : IP}
    (h : parseIPv6 s = some ip) : IPv6Text s := by
  unfold parseIPv6 at h
  split at h
  · exact .inr ⟨[], [], 0, 0, rfl, .inl ⟨rfl, rfl⟩, .inl ⟨rfl, rfl⟩, by omega⟩
  · next s hs =>
    -- an ellipsis in front
    obtain ⟨⟨ip', ellipsis', rest⟩, hloop, hexpand⟩ :=
      Option.bind_eq_some_iff.mp h
    obtain ⟨rfl, hlt, -⟩ := expand_eq_some hexpand
    have hne : s ≠ [] := by
      rintro rfl
      exact hs rfl
    obtain ⟨⟨n, hn, rfl, hlen⟩ | ⟨_, _, _, _, hnone, _⟩, -⟩ :=
      reads_of_loop 8 [] (some 0) s ip' ellipsis' hne rfl hloop
    · have := hlt rfl
      rw [hlen, List.length_nil] at this
      exact .inr ⟨[], s, 0, n, rfl, .inl ⟨rfl, rfl⟩, .inr hn, by omega⟩
    · cases hnone
  · obtain ⟨⟨ip', ellipsis', rest⟩, hloop, hexpand⟩ :=
      Option.bind_eq_some_iff.mp h
    obtain ⟨rfl, hlt, hge⟩ := expand_eq_some hexpand
    have hne : s ≠ [] := by
      rintro rfl
      cases hloop
    obtain ⟨⟨n, hn, rfl, hlen⟩ | ⟨l, r, nₗ, nᵣ, _, rfl, hl, hr, hsome, hlen⟩,
      hfits⟩ := reads_of_loop 8 [] none s ip' ellipsis' hne rfl hloop
    · have := hge rfl
      rw [hlen, List.length_nil] at this hfits
      obtain rfl : n = 8 := by omega
      exact .inl hn
    · have := hlt hsome
      rw [hlen, List.length_nil] at this
      exact .inr ⟨l, r, nₗ, nᵣ, rfl, .inr hl, hr, by omega⟩

/-! ## Letters and lengths -/

theorem isHex_of_isDigit {b : UInt8} (h : isDigit b = true) :
    isHex b = true := by
  simp [isHex, h]

theorem lt_of_isHex {b : UInt8} (h : isHex b = true) : b < 0x80 := by
  simp only [isHex, isDigit, Bool.or_eq_true, Bool.and_eq_true,
    decide_eq_true_eq, UInt8.le_iff_toNat_le] at h
  have hle : b.toNat ≤ 0x66 := by
    rcases h with (⟨-, h⟩ | ⟨-, h⟩) | ⟨-, h⟩
    · exact Nat.le_trans h (by decide)
    · exact h
    · exact Nat.le_trans h (by decide)
  exact UInt8.lt_iff_toNat_lt.mpr (Nat.lt_of_le_of_lt hle (by decide))

/-- Four octets, written out. -/
private theorem Dotted.exists {s : GoString} (h : Dotted s) :
    ∃ p₁ p₂ p₃ p₄, Octet p₁ ∧ Octet p₂ ∧ Octet p₃ ∧ Octet p₄ ∧
      s = p₁ ++ dot :: (p₂ ++ dot :: (p₃ ++ dot :: p₄)) := by
  obtain ⟨octets, hlength, hoctets, rfl⟩ := h
  match octets, hlength with
  | [p₁, p₂, p₃, p₄], _ =>
      refine ⟨p₁, p₂, p₃, p₄, hoctets _ ?_, hoctets _ ?_, hoctets _ ?_,
        hoctets _ ?_, ?_⟩
      all_goals simp [GoString.join]

theorem Dotted.length_le {s : GoString} (h : Dotted s) : s.length ≤ 15 := by
  obtain ⟨p₁, p₂, p₃, p₄, h₁, h₂, h₃, h₄, rfl⟩ := h.exists
  have := h₁.short
  have := h₂.short
  have := h₃.short
  have := h₄.short
  simp only [List.length_append, List.length_cons]
  omega

theorem Dotted.dot_mem {s : GoString} (h : Dotted s) : dot ∈ s := by
  obtain ⟨p₁, p₂, p₃, p₄, -, -, -, -, rfl⟩ := h.exists
  simp

theorem Dotted.bytes {s : GoString} (h : Dotted s) :
    ∀ b ∈ s, isDigit b = true ∨ b = dot := by
  obtain ⟨p₁, p₂, p₃, p₄, h₁, h₂, h₃, h₄, rfl⟩ := h.exists
  have := h₁.digits
  have := h₂.digits
  have := h₃.digits
  have := h₄.digits
  intro b hb
  simp only [List.mem_append, List.mem_cons] at hb
  grind

theorem Dotted.no_colon {s : GoString} (h : Dotted s) : colon ∉ s := by
  intro hmem
  rcases h.bytes colon hmem with hb | hb
  · cases hb
  · cases hb

/-- Groups of hex digits are short. -/
theorem Groups.length_le {quad : Prop} {n : Nat} {s : GoString}
    (h : Groups quad n s) (hdot : dot ∉ s) : s.length + 1 ≤ 5 * n := by
  induction h with
  | group hp =>
      have := hp.short
      omega
  | dotted _ hs => exact absurd hs.dot_mem hdot
  | cons hp _ ih =>
      have := hp.short
      have := ih fun hmem => hdot (by simp [hmem])
      simp only [List.length_append, List.length_cons]
      omega

theorem Side.length_le {quad : Prop} {n : Nat} {s : GoString}
    (h : Side quad n s) (hdot : dot ∉ s) : s.length ≤ 5 * n := by
  rcases h with ⟨rfl, rfl⟩ | h
  · exact Nat.zero_le _
  · have := h.length_le hdot
    omega

/-- **An IPv6 text without a dotted quad fits in 39 letters.** -/
theorem IPv6Text.length_le {s : GoString} (h : IPv6Text s) (hdot : dot ∉ s) :
    s.length ≤ 39 := by
  rcases h with h | ⟨l, r, nₗ, nᵣ, rfl, hl, hr, hn⟩
  · have := h.length_le hdot
    omega
  · have := hl.length_le fun hmem => hdot (by simp [hmem])
    have := hr.length_le fun hmem => hdot (by simp [hmem])
    simp only [List.length_append, List.length_cons]
    omega

theorem Groups.bytes {quad : Prop} {n : Nat} {s : GoString}
    (h : Groups quad n s) : ∀ b ∈ s, isHex b = true ∨ b = dot ∨ b = colon := by
  induction h with
  | group hp => exact fun b hb => .inl (hp.digits b hb)
  | dotted _ hs =>
      intro b hb
      rcases hs.bytes b hb with hb | hb
      · exact .inl (isHex_of_isDigit hb)
      · exact .inr (.inl hb)
  | cons hp _ ih =>
      intro b hb
      rcases List.mem_append.mp hb with hb | hb
      · exact .inl (hp.digits b hb)
      · rcases List.mem_cons.mp hb with hb | hb
        · exact .inr (.inr hb)
        · exact ih b hb

theorem Side.bytes {quad : Prop} {n : Nat} {s : GoString}
    (h : Side quad n s) : ∀ b ∈ s, isHex b = true ∨ b = dot ∨ b = colon := by
  rcases h with ⟨-, rfl⟩ | h
  · exact nofun
  · exact h.bytes

theorem IPv6Text.bytes {s : GoString} (h : IPv6Text s) :
    ∀ b ∈ s, isHex b = true ∨ b = dot ∨ b = colon := by
  rcases h with h | ⟨l, r, nₗ, nᵣ, rfl, hl, hr, -⟩
  · exact h.bytes
  · intro b hb
    have := hl.bytes b
    have := hr.bytes b
    simp only [List.mem_append, List.mem_cons] at hb
    grind

/-! ## What `ParseIP` accepts -/

/-- The two grammars, by the byte that decides. -/
theorem parseIP_cases {s : GoString} {ip : IP} (h : parseIP s = some ip) :
    Dotted s ∧ (to4 ip).isSome = true ∨ colon ∈ s ∧ IPv6Text s := by
  unfold parseIP at h
  split at h
  · cases h
  · split at h
    · cases h
    · next b hfind =>
      split at h
      · rw [Option.map_eq_some_iff] at h
        obtain ⟨fields, hfields, rfl⟩ := h
        refine .inl ⟨(dotted_of_parse hfields).2, ?_⟩
        have htake : (v4InV6Prefix ++ fields).take 12 = v4InV6Prefix :=
          List.take_left' (by decide)
        simp [to4, htake]
      · next hdot =>
        have hb := List.find?_some hfind
        have hcolon : b = colon := by simpa [hdot] using hb
        exact .inr ⟨hcolon ▸ List.mem_of_find?_eq_some hfind,
          ipv6Text_of_parse h⟩

theorem bytes_of_parseIP {s : GoString} {ip : IP} (h : parseIP s = some ip) :
    ∀ b ∈ s, isHex b = true ∨ b = dot ∨ b = colon := by
  rcases parseIP_cases h with ⟨hs, -⟩ | ⟨-, hs⟩
  · intro b hb
    rcases hs.bytes b hb with hb | hb
    · exact .inl (isHex_of_isDigit hb)
    · exact .inr (.inl hb)
  · exact hs.bytes

end GoIP

end Hdns.Verified

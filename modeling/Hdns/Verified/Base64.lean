import Hdns.Verified.Effect
import Hdns.Verified.GoString

/-!
# Standard base64

`base64.StdEncoding`: three bytes are four characters of the alphabet, and a
rest of one or two bytes is padded to four characters.  Decoding passes over
line breaks and does not look at the bits the padding stands for.

## Main results

* `encode_ascii` — an encoded text is ASCII without spaces.
* `decodeString_encode` — decoding undoes encoding.
* `mem_of_decodeString`, `decodeString_ne_nil` — what a text that decodes is
  made of, and that it holds something.
-/

namespace Hdns.Verified.Base64

open Hdns.Verified.GoString

/-! ## The alphabet -/

/-- The padding character. -/
def pad : UInt8 := 0x3D

/-- The character of six bits. -/
def char (v : Nat) : UInt8 :=
  if v < 26 then UInt8.ofNat (0x41 + v)
  else if v < 52 then UInt8.ofNat (0x61 + (v - 26))
  else if v < 62 then UInt8.ofNat (0x30 + (v - 52))
  else if v = 62 then 0x2B
  else 0x2F

/-- `CorruptInputError`, without the offset in its text. -/
def corrupt : GoString := "illegal base64 data"

/-- The six bits of a character. -/
def value (c : UInt8) : Except GoString Nat :=
  if 0x41 ≤ c ∧ c ≤ 0x5A then .ok (c.toNat - 0x41)
  else if 0x61 ≤ c ∧ c ≤ 0x7A then .ok (c.toNat - 0x61 + 26)
  else if 0x30 ≤ c ∧ c ≤ 0x39 then .ok (c.toNat - 0x30 + 52)
  else if c = 0x2B then .ok 62
  else if c = 0x2F then .ok 63
  else .error corrupt

theorem value_char : ∀ v < 64, value (char v) = .ok v := by decide

theorem char_ne_pad : ∀ v < 64, char v ≠ pad := by decide

/-- A character of an encoded text. -/
def Plain (c : UInt8) : Prop :=
  c < 0x80 ∧ isSpace c.toNat = false ∧ c ≠ 0x0A ∧ c ≠ 0x0D

instance (c : UInt8) : Decidable (Plain c) :=
  inferInstanceAs (Decidable (_ ∧ _ ∧ _ ∧ _))

theorem char_plain : ∀ v < 64, Plain (char v) := by decide

theorem pad_plain : Plain pad := by decide

/-! ## Encoding -/

/-- The 24 bits of three bytes. -/
def group (a b c : UInt8) : Nat :=
  a.toNat * 65536 + b.toNat * 256 + c.toNat

/-- `EncodeToString`. -/
def encode : GoString → GoString
  | a :: b :: c :: rest =>
      let n := group a b c
      char (n / 262144) :: char (n / 4096 % 64) :: char (n / 64 % 64) ::
        char (n % 64) :: encode rest
  | [a, b] =>
      let n := group a b 0
      [char (n / 262144), char (n / 4096 % 64), char (n / 64 % 64), pad]
  | [a] =>
      let n := group a 0 0
      [char (n / 262144), char (n / 4096 % 64), pad, pad]
  | [] => []

example : encode (lit "any carnal pleas") = lit "YW55IGNhcm5hbCBwbGVhcw==" := by
  decide

theorem encode_ne_nil {bs : GoString} (h : bs ≠ []) : encode bs ≠ [] := by
  match bs, h with
  | _ :: _ :: _ :: _, _ => nofun
  | [_, _], _ => nofun
  | [_], _ => nofun

private theorem group_lt (a b c : UInt8) : group a b c < 16777216 := by
  have ha := a.toNat_lt
  have hb := b.toNat_lt
  have hc := c.toNat_lt
  unfold group
  omega

/-- The four times six bits of a group. -/
private theorem sixBits {n : Nat} (h : n < 16777216) :
    n / 262144 < 64 ∧ n / 4096 % 64 < 64 ∧ n / 64 % 64 < 64 ∧ n % 64 < 64 := by
  omega

/-- **An encoded text** is ASCII without spaces. -/
theorem encode_ascii (bs : GoString) : ∀ c ∈ encode bs, Plain c := by
  induction bs using encode.induct with
  | case1 a b c rest ih =>
      obtain ⟨h₁, h₂, h₃, h₄⟩ := sixBits (group_lt a b c)
      simp only [encode, List.forall_mem_cons]
      exact ⟨char_plain _ h₁, char_plain _ h₂, char_plain _ h₃,
        char_plain _ h₄, ih⟩
  | case2 a b =>
      obtain ⟨h₁, h₂, h₃, _⟩ := sixBits (group_lt a b 0)
      simp only [encode, List.forall_mem_cons]
      exact ⟨char_plain _ h₁, char_plain _ h₂, char_plain _ h₃, pad_plain,
        nofun⟩
  | case3 a =>
      obtain ⟨h₁, h₂, _, _⟩ := sixBits (group_lt a 0 0)
      simp only [encode, List.forall_mem_cons]
      exact ⟨char_plain _ h₁, char_plain _ h₂, pad_plain, pad_plain, nofun⟩
  | case4 => nofun

/-! ## Decoding -/

/-- The bytes of an encoded text without line breaks. -/
def decodeQuanta : GoString → Except GoString GoString
  | [] => .ok []
  | c₁ :: c₂ :: c₃ :: c₄ :: rest => do
      let v₁ ← value c₁
      let v₂ ← value c₂
      if c₃ = pad ∧ c₄ = pad ∧ rest = [] then
        let n := v₁ * 262144 + v₂ * 4096
        pure [UInt8.ofNat (n / 65536)]
      else
        let v₃ ← value c₃
        if c₄ = pad ∧ rest = [] then
          let n := v₁ * 262144 + v₂ * 4096 + v₃ * 64
          pure [UInt8.ofNat (n / 65536), UInt8.ofNat (n / 256 % 256)]
        else
          let v₄ ← value c₄
          let n := v₁ * 262144 + v₂ * 4096 + v₃ * 64 + v₄
          let bytes ← decodeQuanta rest
          pure (UInt8.ofNat (n / 65536) :: UInt8.ofNat (n / 256 % 256) ::
            UInt8.ofNat (n % 256) :: bytes)
  | _ => .error corrupt

/-- `DecodeString`: line breaks are passed over. -/
def decodeString (s : GoString) : Except GoString GoString :=
  decodeQuanta (s.filter fun c => c ≠ 0x0A ∧ c ≠ 0x0D)

/-- The bytes of a group. -/
private theorem bytes_group (a b c : UInt8) :
    UInt8.ofNat (group a b c / 65536) = a ∧
      UInt8.ofNat (group a b c / 256 % 256) = b ∧
      UInt8.ofNat (group a b c % 256) = c := by
  have hb := b.toNat_lt
  have hc := c.toNat_lt
  have hdef : group a b c = a.toNat * 65536 + b.toNat * 256 + c.toNat := rfl
  have h₁ : group a b c / 65536 = a.toNat := by omega
  have h₂ : group a b c / 256 % 256 = b.toNat := by omega
  have h₃ : group a b c % 256 = c.toNat := by omega
  rw [h₁, h₂, h₃]
  exact ⟨UInt8.ofNat_toNat, UInt8.ofNat_toNat, UInt8.ofNat_toNat⟩

/-- A group from its six bits each. -/
private theorem regroup (n : Nat) :
    n / 262144 * 262144 + n / 4096 % 64 * 4096 + n / 64 % 64 * 64 + n % 64 =
      n := by
  omega

theorem decodeQuanta_encode (bs : GoString) :
    decodeQuanta (encode bs) = .ok bs := by
  induction bs using encode.induct with
  | case1 a b c rest ih =>
      obtain ⟨h₁, h₂, h₃, h₄⟩ := sixBits (group_lt a b c)
      obtain ⟨ha, hb, hc⟩ := bytes_group a b c
      simp only [encode, decodeQuanta, value_char _ h₁, value_char _ h₂,
        value_char _ h₃, value_char _ h₄, char_ne_pad _ h₃, char_ne_pad _ h₄,
        false_and, if_false, ih]
      exact congrArg Except.ok (by rw [regroup, ha, hb, hc])
  | case2 a b =>
      obtain ⟨h₁, h₂, h₃, _⟩ := sixBits (group_lt a b 0)
      obtain ⟨ha, hb, _⟩ := bytes_group a b 0
      have hlast : group a b 0 % 64 = 0 := by
        unfold group
        have : (0 : UInt8).toNat = 0 := rfl
        omega
      have hn := regroup (group a b 0)
      rw [hlast, Nat.add_zero] at hn
      simp only [encode, decodeQuanta, value_char _ h₁, value_char _ h₂,
        value_char _ h₃, char_ne_pad _ h₃, false_and, if_false, and_self,
        if_true]
      exact congrArg Except.ok (by rw [hn, ha, hb])
  | case3 a =>
      obtain ⟨h₁, h₂, _, _⟩ := sixBits (group_lt a 0 0)
      obtain ⟨ha, _, _⟩ := bytes_group a 0 0
      have hn : group a 0 0 / 262144 * 262144 +
          group a 0 0 / 4096 % 64 * 4096 = group a 0 0 := by
        unfold group
        have : (0 : UInt8).toNat = 0 := rfl
        omega
      simp only [encode, decodeQuanta, value_char _ h₁, value_char _ h₂,
        and_self, if_true]
      exact congrArg Except.ok (by rw [hn, ha])
  | case4 => rfl

/-- **Decoding undoes encoding.** -/
theorem decodeString_encode (bs : GoString) :
    decodeString (encode bs) = .ok bs := by
  have hkept : (encode bs).filter (fun c => c ≠ 0x0A ∧ c ≠ 0x0D) =
      encode bs := by
    refine List.filter_eq_self.mpr fun c hc => ?_
    obtain ⟨_, _, hnewline, hreturn⟩ := encode_ascii bs c hc
    exact decide_eq_true ⟨hnewline, hreturn⟩
  rw [decodeString, hkept, decodeQuanta_encode]

/-! ## Texts that decode -/

theorem value_plain {c : UInt8} {v : Nat} (h : value c = .ok v) : Plain c := by
  have hall : ∀ c, (value c).isOk = true → Plain c := by
    apply forall_byte
    decide +kernel
  apply hall
  rw [h]
  rfl

/-- The first quantum of a text that decodes. -/
private theorem decodeQuanta_cons {c₁ c₂ c₃ c₄ : UInt8} {rest bs : GoString}
    (h : decodeQuanta (c₁ :: c₂ :: c₃ :: c₄ :: rest) = .ok bs) :
    (Plain c₁ ∧ Plain c₂ ∧ Plain c₃ ∧ Plain c₄) ∧ bs ≠ [] ∧
      (rest = [] ∨ ∃ bs', decodeQuanta rest = .ok bs') := by
  rw [decodeQuanta] at h
  obtain ⟨v₁, h₁, h⟩ := Prog.except_bind_eq_ok.mp h
  obtain ⟨v₂, h₂, h⟩ := Prog.except_bind_eq_ok.mp h
  by_cases hend : c₃ = pad ∧ c₄ = pad ∧ rest = []
  · rw [if_pos hend] at h
    obtain rfl := Except.ok.inj h
    obtain ⟨rfl, rfl, hrest⟩ := hend
    exact ⟨⟨value_plain h₁, value_plain h₂, pad_plain, pad_plain⟩, by simp,
      .inl hrest⟩
  rw [if_neg hend] at h
  obtain ⟨v₃, h₃, h⟩ := Prog.except_bind_eq_ok.mp h
  by_cases hend : c₄ = pad ∧ rest = []
  · rw [if_pos hend] at h
    obtain rfl := Except.ok.inj h
    obtain ⟨rfl, hrest⟩ := hend
    exact ⟨⟨value_plain h₁, value_plain h₂, value_plain h₃, pad_plain⟩,
      by simp, .inl hrest⟩
  rw [if_neg hend] at h
  obtain ⟨v₄, h₄, h⟩ := Prog.except_bind_eq_ok.mp h
  obtain ⟨bs', hbs', h⟩ := Prog.except_bind_eq_ok.mp h
  obtain rfl := Except.ok.inj h
  exact ⟨⟨value_plain h₁, value_plain h₂, value_plain h₃, value_plain h₄⟩,
    by simp, .inr ⟨bs', hbs'⟩⟩

private theorem decodeQuanta_plain : ∀ (s bs : GoString),
    decodeQuanta s = .ok bs → ∀ c ∈ s, Plain c := by
  intro s
  induction s using decodeQuanta.induct with
  | case1 => exact fun _ _ => nofun
  | case2 c₁ c₂ c₃ c₄ rest ih =>
      intro bs h
      obtain ⟨⟨h₁, h₂, h₃, h₄⟩, -, hrest⟩ := decodeQuanta_cons h
      simp only [List.forall_mem_cons]
      refine ⟨h₁, h₂, h₃, h₄, ?_⟩
      rcases hrest with rfl | ⟨bs', hbs'⟩
      · nofun
      · exact ih bs' hbs'
  | case3 s hnil hcons =>
      intro bs h
      simp [decodeQuanta] at h

/-- **What a text that decodes is made of**: characters and line breaks. -/
theorem mem_of_decodeString {s bs : GoString} (h : decodeString s = .ok bs) :
    ∀ c ∈ s, Plain c ∨ c = 0x0A ∨ c = 0x0D := by
  intro c hc
  by_cases hbreak : c = 0x0A ∨ c = 0x0D
  · exact .inr hbreak
  · rw [not_or] at hbreak
    refine .inl (decodeQuanta_plain _ bs h c ?_)
    exact List.mem_filter.mpr ⟨hc, decide_eq_true hbreak⟩

/-- **A text that decodes holds something**, unless it is line breaks. -/
theorem decodeString_ne_nil {s bs : GoString} (h : decodeString s = .ok bs)
    (hs : ∃ c ∈ s, Plain c) : bs ≠ [] := by
  obtain ⟨c, hc, -, -, hnewline, hreturn⟩ := hs
  have hkept : c ∈ s.filter fun c => c ≠ 0x0A ∧ c ≠ 0x0D :=
    List.mem_filter.mpr ⟨hc, decide_eq_true ⟨hnewline, hreturn⟩⟩
  rw [decodeString] at h
  generalize s.filter (fun c => c ≠ 0x0A ∧ c ≠ 0x0D) = kept at h hkept
  match kept, hkept with
  | [_], _ => cases h
  | [_, _], _ => cases h
  | [_, _, _], _ => cases h
  | _ :: _ :: _ :: _ :: _, _ => exact (decodeQuanta_cons h).2.1

end Hdns.Verified.Base64

import Hdns.Verified.TrimSpace

/-!
# The bytes of a character

A text is the bytes of its runes.  A rune that is no error is one ASCII byte, or
bytes none of which is an ASCII byte; so an ASCII byte of a text is a rune of
its own.

## Main results

* `bytes_of_tail` — the bytes of a character that is not in ASCII.
* `rune_of_ascii` — an ASCII byte is a rune.
* `bytes_of_lt` — an ASCII rune is a byte.
* `valid_append`, `valid_rune` — putting valid texts together, and taking them
  apart.
-/

namespace Hdns.Verified

namespace GoString

/-- What the lead-byte table says of a byte. -/
def LeadSpec (b : UInt8) (l : Lead) : Prop :=
  0xC2 ≤ b ∧ 0x80 ≤ l.lo ∧ l.hi ≤ 0xBF ∧
    (l.size = 2 ∨ l.size = 3 ∧ b.toNat / 16 = 14 ∨
      l.size = 4 ∧ b.toNat / 8 = 30 ∧ (b.toNat % 8 = 0 → 0x90 ≤ l.lo))

instance (b : UInt8) (l : Lead) : Decidable (LeadSpec b l) :=
  inferInstanceAs (Decidable (_ ∧ _))

theorem lead_spec {b : UInt8} {l : Lead} (h : lead b = some l) :
    LeadSpec b l := by
  have hall : ∀ b, ∀ l ∈ (lead b).toList, LeadSpec b l := by
    apply forall_byte
    decide +kernel
  have hb := hall b l
  rw [h] at hb
  exact hb (List.mem_singleton_self l)

/-- A byte between two bounds, as a number. -/
theorem toNat_bounds {c lo hi : UInt8} (h : lo ≤ c ∧ c ≤ hi) :
    lo.toNat ≤ c.toNat ∧ c.toNat ≤ hi.toNat :=
  ⟨UInt8.le_iff_toNat_le.mp h.1, UInt8.le_iff_toNat_le.mp h.2⟩

theorem isCont_bounds {c : UInt8} (h : isCont c = true) :
    0x80 ≤ c.toNat ∧ c.toNat ≤ 0xBF := by
  rw [isCont, Bool.and_eq_true, decide_eq_true_eq, decide_eq_true_eq] at h
  exact toNat_bounds h

/-- The bytes of a sequence: none is an ASCII byte, and the two separators
JavaScript treats as ends of lines are known by their number. -/
theorem bytes_of_tail {b : UInt8} {l : Lead} {u : GoString} {r : Nat}
    (hlead : LeadSpec b l) (h : decodeTail b l u = some r) :
    (∀ c ∈ (b :: u).take l.size, 0x80 ≤ c.toNat) ∧
      2 ≤ ((b :: u).take l.size).length ∧
      ∀ n < 2, r = 0x2028 + n → (b :: u).take l.size =
        [0xE2, 0x80, UInt8.ofNat (0xA8 + n)] := by
  obtain ⟨hge, hlo, hhi, hsize⟩ := hlead
  have hb : 0xC2 ≤ b.toNat := UInt8.le_iff_toNat_le.mp hge
  have hlo : 0x80 ≤ l.lo.toNat := UInt8.le_iff_toNat_le.mp hlo
  have hhi : l.hi.toNat ≤ 0xBF := UInt8.le_iff_toNat_le.mp hhi
  have hlt := b.toNat_lt
  unfold decodeTail at h
  split at h
  · next hsize₂ =>
      split at h
      · next c₁ rest hc₁ =>
          have hc₁ := toNat_bounds hc₁
          have hr := Option.some.inj h
          unfold payload at hr
          simp only [hsize₂, List.take_succ_cons, List.take_zero,
            List.mem_cons, List.not_mem_nil, or_false, forall_eq_or_imp,
            forall_eq, List.length_cons, List.length_nil]
          exact ⟨⟨by omega, by omega⟩, by omega, fun n hn heq => by omega⟩
      · cases h
  · next hsize₃ =>
      split at h
      · next c₁ c₂ rest hc =>
          have hc₁ := toNat_bounds hc.1
          have hc₂ := isCont_bounds hc.2
          have hr := Option.some.inj h
          unfold payload at hr
          simp only [hsize₃, List.take_succ_cons, List.take_zero,
            List.mem_cons, List.not_mem_nil, or_false, forall_eq_or_imp,
            forall_eq, List.length_cons, List.length_nil]
          refine ⟨⟨by omega, by omega, by omega⟩, by omega, ?_⟩
          intro n hn heq
          have hfirst : b = 0xE2 := UInt8.toNat_inj.mp
            (show b.toNat = 0xE2 by omega)
          have hsecond : c₁ = 0x80 := UInt8.toNat_inj.mp
            (show c₁.toNat = 0x80 by omega)
          have hthird : c₂.toNat = 0xA8 + n := by omega
          rw [← hthird, UInt8.ofNat_toNat, hfirst, hsecond]
      · cases h
  · next hsize₄ =>
      split at h
      · next c₁ c₂ c₃ rest hc =>
          have hc₁ := toNat_bounds hc.1
          have hc₂ := isCont_bounds hc.2.1
          have hc₃ := isCont_bounds hc.2.2
          have hr := Option.some.inj h
          have hwide : b.toNat % 8 = 0 → 0x90 ≤ l.lo.toNat := by
            intro hzero
            rcases hsize with hsize | ⟨hsize, -⟩ | ⟨-, -, hcase⟩
            · omega
            · omega
            · exact UInt8.le_iff_toNat_le.mp (hcase hzero)
          unfold payload at hr
          simp only [hsize₄, List.take_succ_cons, List.take_zero,
            List.mem_cons, List.not_mem_nil, or_false, forall_eq_or_imp,
            forall_eq, List.length_cons, List.length_nil]
          exact ⟨⟨by omega, by omega, by omega, by omega⟩, by omega,
            fun n hn heq => by omega⟩
      · cases h
  · cases h

/-- An ASCII byte is a rune of its own. -/
theorem rune_of_ascii {s : GoString} {r : Nat × GoString} {b : UInt8}
    (hr : r ∈ s.runes) (hb : b ∈ r.2) (hascii : b < 0x80) :
    r = (b.toNat, [b]) := by
  obtain ⟨-, c, u, rfl⟩ := mem_runes _ s (Nat.le_refl _) r hr
  have hlt : b.toNat < 0x80 := UInt8.lt_iff_toNat_lt.mp hascii
  cases hlead : lead c with
  | none =>
      have hwidth : runeWidth (c :: u) = 1 := by
        simp [runeWidth, decodeRune, hlead]
      rw [hwidth] at hb ⊢
      obtain rfl := List.mem_singleton.mp hb
      simp [decodeRune, hlead, hascii]
  | some l =>
      have hspec := lead_spec hlead
      cases htail : decodeTail c l u with
      | none =>
          have hwidth : runeWidth (c :: u) = 1 := by
            simp [runeWidth, decodeRune, hlead, htail]
          rw [hwidth] at hb
          obtain rfl := List.mem_singleton.mp hb
          have hge : 0xC2 ≤ b.toNat := UInt8.le_iff_toNat_le.mp hspec.1
          omega
      | some n =>
          have hwidth : runeWidth (c :: u) = l.size := by
            simp [runeWidth, decodeRune, hlead, htail]
          rw [hwidth] at hb
          have hge := (bytes_of_tail hspec htail).1 b hb
          omega

/-- No character of ASCII is encoded in more than one byte. -/
private theorem decodeTail_ge {b : UInt8} {l : Lead} {u : GoString} {r : Nat}
    (hlead : lead b = some l) (h : decodeTail b l u = some r) : 0x80 ≤ r := by
  have hall : ∀ b, ∀ l ∈ (lead b).toList,
      (l.size = 2 → 2 ≤ b.toNat % 32) ∧
        (l.size = 3 → b.toNat % 16 = 0 → 0xA0 ≤ l.lo.toNat) := by
    apply forall_byte
    decide +kernel
  obtain ⟨htwo, hthree⟩ := hall b l (by rw [hlead]; exact List.mem_cons_self)
  obtain ⟨-, -, hhi, hsize⟩ := lead_spec hlead
  have hhi : l.hi.toNat ≤ 0xBF := UInt8.le_iff_toNat_le.mp hhi
  have hfour : l.size = 4 → b.toNat % 8 = 0 → 0x90 ≤ l.lo.toNat := by
    intro hfour hzero
    rcases hsize with hsize | ⟨hsize, -⟩ | ⟨-, -, hcase⟩
    · omega
    · omega
    · exact UInt8.le_iff_toNat_le.mp (hcase hzero)
  unfold decodeTail at h
  split at h
  · next hsize₂ =>
      split at h
      · next hc =>
          have hr := Option.some.inj h
          unfold payload at hr
          have := htwo hsize₂
          omega
      · cases h
  · next hsize₃ =>
      split at h
      · next hc =>
          have hc₁ := toNat_bounds hc.1
          have hr := Option.some.inj h
          unfold payload at hr
          have := hthree hsize₃
          omega
      · cases h
  · next hsize₄ =>
      split at h
      · next hc =>
          have hc₁ := toNat_bounds hc.1
          have hr := Option.some.inj h
          unfold payload at hr
          have := hfour hsize₄
          omega
      · cases h
  · cases h

/-- An ASCII rune is one byte. -/
theorem bytes_of_lt {s : GoString} {r : Nat × GoString} (hr : r ∈ s.runes)
    (hlt : r.1 < 0x80) : r.2 = [UInt8.ofNat r.1] := by
  obtain ⟨-, c, u, rfl⟩ := mem_runes _ s (Nat.le_refl _) r hr
  cases hlead : lead c with
  | none =>
      by_cases hascii : c < 0x80
      · simp [runeWidth, decodeRune, hlead, hascii]
      · simp [decodeRune, hlead, hascii, runeError] at hlt
  | some l =>
      cases htail : decodeTail c l u with
      | none => simp [decodeRune, hlead, htail, runeError] at hlt
      | some n =>
          have hge := decodeTail_ge hlead htail
          simp only [decodeRune, hlead, htail] at hlt
          omega

/-- A text with an ASCII byte that is no white space is not trimmed to
nothing. -/
theorem trimSpace_ne_nil {s : GoString} {b : UInt8} (hb : b ∈ s)
    (hascii : b < 0x80) (hspace : isSpace b.toNat = false) :
    s.trimSpace ≠ [] := by
  rw [← flatMap_runes _ s (Nat.le_refl _)] at hb
  obtain ⟨r, hr, hbr⟩ := List.mem_flatMap.mp hb
  intro hnil
  have hblank := trimSpace_eq_nil_iff.mp hnil r hr
  rw [rune_of_ascii hr hbr hascii, hspace] at hblank
  cases hblank

/-! ## Valid texts -/

/-- A text is valid when all its runes stand for themselves. -/
theorem valid_iff {s : GoString} : s.valid = true ↔ ∀ r ∈ runes s, Proper r := by
  simp [valid, Proper]

theorem valid_append {s t : GoString} (hs : s.valid = true)
    (ht : t.valid = true) : (s ++ t).valid = true := by
  rw [valid_iff] at *
  rw [runes_append _ s (Nat.le_refl _) hs]
  exact List.forall_mem_append.mpr ⟨hs, ht⟩

theorem valid_flatMap {α : Type} {f : α → GoString} {xs : List α}
    (h : ∀ x ∈ xs, (f x).valid = true) : valid (xs.flatMap f) = true := by
  induction xs with
  | nil => rfl
  | cons x xs ih =>
      rw [List.forall_mem_cons] at h
      rw [List.flatMap_cons]
      exact valid_append h.1 (ih h.2)

/-- The bytes of a rune of a valid text. -/
theorem valid_rune {s : GoString} {r : Nat × GoString} (hr : r ∈ runes s)
    (hs : s.valid = true) : r.2.valid = true := by
  obtain ⟨as, bs, hsplit⟩ := List.append_of_mem hr
  have hright := (runes_of_append s hsplit).2
  have hsplit' : runes ((r :: bs).flatMap (·.2)) = [r] ++ bs := hright
  have hone := (runes_of_append _ hsplit').1
  rw [List.flatMap_singleton] at hone
  rw [valid_iff, hone, List.forall_mem_singleton]
  exact valid_iff.mp hs r hr

end GoString

end Hdns.Verified

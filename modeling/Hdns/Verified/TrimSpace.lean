import Hdns.Verified.GoString
import Mathlib.Data.List.DropRight

/-!
# Trimming a text and its beginning

A reader that takes a bounded prefix of a text and trims it sees the same word
as one that takes the whole text exactly when nothing but white space is cut
off.

## Main results

* `runes_append` — the runes of a valid text do not depend on what follows.
* `flatMap_runes` — the bytes of the runes are the text.
* `runes_of_append` — the runes of a part of a text that is cut between runes.
* `trimSpace_trimSpace` — trimming twice.
* `trimSpace_append_iff` — when a text is trimmed to the same word as its
  beginning.
-/

namespace Hdns.Verified

namespace GoString

/-! ## Runes of a concatenation -/

/-- A rune stands for itself: it is not what a stray byte decodes to. -/
def Proper (r : Nat × GoString) : Prop := r.1 ≠ runeError ∨ r.2.length ≠ 1

theorem runeWidth_pos (b : UInt8) (s : GoString) : 1 ≤ runeWidth (b :: s) := by
  have hlead : ∀ l, lead b = some l → 1 ≤ l.size := by
    intro l hl
    unfold lead at hl
    grind
  unfold runeWidth decodeRune
  grind

private theorem runes_go_eq : ∀ (n m : Nat) (s : GoString), s.length ≤ n →
    s.length ≤ m → runes.go n s = runes.go m s := by
  intro n
  induction n with
  | zero =>
      intro m s hn _
      obtain rfl := List.length_eq_zero_iff.mp (Nat.le_zero.mp hn)
      cases m <;> rfl
  | succ n ih =>
      intro m s hn hm
      cases s with
      | nil => cases m <;> rfl
      | cons b s =>
          cases m with
          | zero => cases hm
          | succ m =>
              have hpos := runeWidth_pos b s
              have hlen : ((b :: s).drop (runeWidth (b :: s))).length ≤
                  s.length := by
                rw [List.length_drop, List.length_cons]
                omega
              rw [List.length_cons] at hn hm
              simp only [runes.go]
              rw [ih m _ (by omega) (by omega)]

theorem runes_cons (b : UInt8) (s : GoString) :
    runes (b :: s) = ((decodeRune (b :: s)).1,
      (b :: s).take (runeWidth (b :: s))) ::
        runes ((b :: s).drop (runeWidth (b :: s))) := by
  have hpos := runeWidth_pos b s
  have hlen : ((b :: s).drop (runeWidth (b :: s))).length ≤ s.length := by
    rw [List.length_drop, List.length_cons]
    omega
  show _ :: runes.go s.length _ = _
  rw [runes_go_eq s.length _ _ hlen (Nat.le_refl _)]
  rfl

/-- A complete sequence is decoded alike in front of anything. -/
private theorem decodeTail_append {b : UInt8} {l : Lead} {s : GoString}
    {c : Nat} (h : decodeTail b l s = some c) (t : GoString) :
    decodeTail b l (s ++ t) = some c ∧ l.size ≤ s.length + 1 := by
  unfold decodeTail at h
  split at h
  · next hsize => exact ⟨by simpa [decodeTail, hsize] using h, by simp [hsize]⟩
  · next hsize => exact ⟨by simpa [decodeTail, hsize] using h, by simp [hsize]⟩
  · next hsize => exact ⟨by simpa [decodeTail, hsize] using h, by simp [hsize]⟩
  · cases h

/-- So is a rune that stands for itself. -/
private theorem decodeRune_append {b : UInt8} {s : GoString}
    (h : (decodeRune (b :: s)).1 ≠ runeError ∨ runeWidth (b :: s) ≠ 1)
    (t : GoString) :
    decodeRune (b :: (s ++ t)) = decodeRune (b :: s) ∧
      runeWidth (b :: s) ≤ (b :: s).length := by
  unfold runeWidth at *
  cases hlead : lead b with
  | none => simp [decodeRune, hlead]
  | some l =>
      cases htail : decodeTail b l s with
      | none => simp [decodeRune, hlead, htail] at h
      | some c =>
          obtain ⟨happend, hsize⟩ := decodeTail_append htail t
          simp [decodeRune, hlead, htail, happend, hsize]

/-- **The runes of a text that are what they are whatever follows.** -/
theorem runes_append {t : GoString} : ∀ (n : Nat) (s : GoString),
    s.length ≤ n → (∀ r ∈ runes s, Proper r) →
      runes (s ++ t) = runes s ++ runes t := by
  intro n
  induction n with
  | zero =>
      intro s hn _
      obtain rfl := List.length_eq_zero_iff.mp (Nat.le_zero.mp hn)
      rfl
  | succ n ih =>
      intro s hn hproper
      cases s with
      | nil => rfl
      | cons b s =>
          rw [runes_cons] at hproper
          have hpos := runeWidth_pos b s
          have hfirst : (decodeRune (b :: s)).1 ≠ runeError ∨
              runeWidth (b :: s) ≠ 1 := by
            refine (hproper _ List.mem_cons_self).imp_right fun hlen hw => ?_
            simp [hw] at hlen
          obtain ⟨hdecode, hle⟩ := decodeRune_append hfirst t
          have hwidth : runeWidth (b :: (s ++ t)) = runeWidth (b :: s) :=
            congrArg Prod.snd hdecode
          rw [List.cons_append, runes_cons, runes_cons, hdecode, hwidth,
            ← List.cons_append, List.take_append_of_le_length hle,
            List.drop_append_of_le_length hle, List.cons_append]
          have hlen : ((b :: s).drop (runeWidth (b :: s))).length ≤ n := by
            rw [List.length_cons] at hn
            rw [List.length_drop, List.length_cons]
            omega
          rw [ih _ hlen fun r hr => hproper r (List.mem_cons_of_mem _ hr)]

/-- The bytes of a rune. -/
theorem mem_runes : ∀ (n : Nat) (s : GoString), s.length ≤ n →
    ∀ r ∈ runes s, r.2 ≠ [] ∧
      ∃ b u, r = ((decodeRune (b :: u)).1, (b :: u).take (runeWidth (b :: u)))
        := by
  intro n
  induction n with
  | zero =>
      intro s hn r hr
      obtain rfl := List.length_eq_zero_iff.mp (Nat.le_zero.mp hn)
      cases hr
  | succ n ih =>
      intro s hn r hr
      cases s with
      | nil => cases hr
      | cons b s =>
          have hpos := runeWidth_pos b s
          rw [runes_cons] at hr
          rcases List.mem_cons.mp hr with rfl | hr
          · refine ⟨?_, b, s, rfl⟩
            rw [Ne, List.take_eq_nil_iff]
            simp
            omega
          · refine ih _ ?_ r hr
            rw [List.length_cons] at hn
            rw [List.length_drop, List.length_cons]
            omega

/-- The bytes of the runes are the text. -/
theorem flatMap_runes : ∀ (n : Nat) (s : GoString), s.length ≤ n →
    s.runes.flatMap (·.2) = s := by
  intro n
  induction n with
  | zero =>
      intro s hn
      rw [List.length_eq_zero_iff.mp (Nat.le_zero.mp hn)]
      rfl
  | succ n ih =>
      intro s hn
      cases s with
      | nil => rfl
      | cons b s =>
          have hpos := runeWidth_pos b s
          rw [runes_cons, List.flatMap_cons, ih]
          · exact List.take_append_drop ..
          · rw [List.length_cons] at hn
            rw [List.length_drop, List.length_cons]
            omega

/-- A sequence is decoded from its own bytes. -/
private theorem decodeTail_of_length {b : UInt8} {l : Lead} {s : GoString}
    (hlen : l.size ≤ s.length + 1) (t : GoString) :
    decodeTail b l (s ++ t) = decodeTail b l s := by
  obtain ⟨size, lo, hi⟩ := l
  rcases size with _ | _ | _ | _ | _ | size
  · rfl
  · rfl
  · match s, hlen with
    | c :: s, _ => rfl
  · match s, hlen with
    | c :: d :: s, _ => rfl
  · match s, hlen with
    | c :: d :: e :: s, _ => rfl
  · rfl

/-- The first rune is decoded from its own bytes. -/
private theorem decodeRune_of_width {b : UInt8} {s t : GoString}
    (h : runeWidth (b :: (s ++ t)) ≤ s.length + 1) :
    decodeRune (b :: s) = decodeRune (b :: (s ++ t)) := by
  unfold runeWidth at h
  cases hlead : lead b with
  | none => simp [decodeRune, hlead]
  | some l =>
      by_cases hsize : l.size ≤ s.length + 1
      · simp only [decodeRune, hlead, decodeTail_of_length hsize]
      · have hnone : decodeTail b l s = none := by
          by_contra hsome
          obtain ⟨c, hc⟩ := Option.ne_none_iff_exists'.mp hsome
          exact hsize (decodeTail_append hc []).2
        cases htail : decodeTail b l (s ++ t) with
        | none => simp only [decodeRune, hlead, hnone, htail]
        | some c =>
            simp only [decodeRune, hlead, htail] at h
            exact absurd h hsize

private theorem runeWidth_le (b : UInt8) (s : GoString) :
    runeWidth (b :: s) ≤ s.length + 1 := by
  unfold runeWidth
  cases hlead : lead b with
  | none => simp [decodeRune, hlead]
  | some l =>
      cases htail : decodeTail b l s with
      | none => simp [decodeRune, hlead, htail]
      | some c =>
          simp only [decodeRune, hlead, htail]
          exact (decodeTail_append htail []).2

/-- The runes of a text are those of its parts, where it is cut between two of
them. -/
theorem runes_of_append {as bs : List (Nat × GoString)} :
    ∀ (s : GoString), runes s = as ++ bs →
      runes (as.flatMap (·.2)) = as ∧ runes (bs.flatMap (·.2)) = bs := by
  induction as with
  | nil =>
      intro s h
      refine ⟨rfl, ?_⟩
      rw [List.nil_append] at h
      rw [← h, flatMap_runes _ s (Nat.le_refl _)]
  | cons a as ih =>
      intro s h
      cases s with
      | nil => cases h
      | cons b s =>
          rw [runes_cons, List.cons_append, List.cons.injEq] at h
          obtain ⟨ha, hrest⟩ := h
          obtain ⟨has, hbs⟩ := ih _ hrest
          refine ⟨?_, hbs⟩
          obtain ⟨w, hw⟩ := Nat.exists_eq_add_of_le' (runeWidth_pos b s)
          have hle := runeWidth_le b s
          rw [hw, List.take_succ_cons] at ha
          rw [hw, List.drop_succ_cons] at hrest
          have htake : (s.take w).length = w := by
            rw [List.length_take]
            omega
          -- the other bytes of the first rune, of the rest of `as`, of `bs`
          have hsplit : s = (s.take w ++ as.flatMap (·.2)) ++
              bs.flatMap (·.2) := by
            rw [List.append_assoc, ← List.flatMap_append, ← hrest,
              flatMap_runes _ _ (Nat.le_refl _), List.take_append_drop]
          have hdecode : decodeRune (b :: (s.take w ++ as.flatMap (·.2))) =
              decodeRune (b :: s) := by
            rw [hsplit] at hw
            conv_rhs => rw [hsplit]
            refine decodeRune_of_width ?_
            rw [hw, List.length_append, htake]
            omega
          have hwidth : runeWidth (b :: (s.take w ++ as.flatMap (·.2))) = w + 1 :=
            (congrArg Prod.snd hdecode).trans hw
          rw [List.flatMap_cons, ← ha]
          show runes (b :: (s.take w ++ as.flatMap (·.2))) = _
          rw [runes_cons, hdecode, hwidth, List.take_succ_cons,
            List.drop_succ_cons, List.take_left' htake, List.drop_left' htake,
            has]

/-- A rune of ASCII bytes stands for itself. -/
private theorem proper_of_ascii {s : GoString} {r : Nat × GoString}
    (hr : r ∈ runes s) (hascii : ∀ b ∈ r.2, b < 0x80) : Proper r := by
  obtain ⟨-, b, u, rfl⟩ := mem_runes _ s (Nat.le_refl _) r hr
  have hpos := runeWidth_pos b u
  have hmem : b ∈ (b :: u).take (runeWidth (b :: u)) := by
    obtain ⟨w, hw⟩ := Nat.exists_eq_add_of_le' hpos
    rw [hw, List.take_succ_cons]
    exact List.mem_cons_self
  have hb := hascii b hmem
  have hlead : lead b = none := if_pos (UInt8.lt_trans hb (by decide))
  refine .inl ?_
  have hlt : b.toNat < 0x80 := UInt8.lt_iff_toNat_lt.mp hb
  simp only [decodeRune, hlead, if_pos hb, runeError]
  omega

private theorem proper_of_isSpace {r : Nat × GoString}
    (h : isSpace r.1 = true) : Proper r := by
  refine .inl fun heq => ?_
  rw [heq] at h
  exact absurd h (by decide)

/-! ## Trimming -/

/-- Drop what is blank at both ends. -/
private def trimList {α : Type} (blank : α → Bool) (xs : List α) : List α :=
  (xs.dropWhile blank).rdropWhile blank

private theorem trimSpace_eq (s : GoString) :
    trimSpace s =
      (trimList (fun r => isSpace r.1) (runes s)).flatMap (·.2) := rfl

section TrimList

variable {α : Type} {blank : α → Bool} {xs : List α}

/-- What is not blank stays. -/
private theorem mem_trimList {x : α} (hx : x ∈ xs) :
    blank x = true ∨ x ∈ trimList blank xs := by
  rw [← List.takeWhile_append_dropWhile (p := blank) (l := xs),
    List.mem_append] at hx
  rcases hx with hx | hx
  · exact .inl (List.mem_takeWhile_imp hx)
  · have hsplit : (xs.dropWhile blank).rdropWhile blank ++
        (xs.dropWhile blank).rtakeWhile blank = xs.dropWhile blank :=
      List.rdropWhile_append_rtakeWhile
    rw [← hsplit, List.mem_append] at hx
    rcases hx with hx | hx
    · exact .inr hx
    · exact .inl (List.mem_rtakeWhile_imp hx)

private theorem trimList_eq_nil :
    trimList blank xs = [] ↔ ∀ x ∈ xs, blank x = true := by
  constructor
  · intro h x hx
    rcases mem_trimList hx with hblank | hmem
    · exact hblank
    · rw [h] at hmem
      cases hmem
  · intro h
    unfold trimList
    rw [List.dropWhile_eq_nil_iff.mpr h, List.rdropWhile_nil]

/-- What follows a list that is not blank is dropped if it is blank, and else
leaves something behind. -/
private theorem trimList_append (hxs : trimList blank xs ≠ []) (ys : List α) :
    (∀ y ∈ ys, blank y = true) ∧
        trimList blank (xs ++ ys) = trimList blank xs ∨
      (∃ y ∈ ys, blank y = false) ∧
        ∃ zs, zs ≠ [] ∧ trimList blank (xs ++ ys) = trimList blank xs ++ zs ∧
          ∀ z ∈ zs, z ∈ xs ++ ys := by
  have hkept : xs.dropWhile blank ≠ [] := by
    intro h
    exact hxs (by rw [trimList, h, List.rdropWhile_nil])
  have happend : (xs ++ ys).dropWhile blank = xs.dropWhile blank ++ ys := by
    rw [List.dropWhile_append]
    simp [hkept]
  unfold trimList
  rw [happend]
  by_cases hys : ∀ y ∈ ys, blank y = true
  · refine .inl ⟨hys, ?_⟩
    unfold List.rdropWhile
    rw [List.reverse_append, List.dropWhile_append_of_pos fun y hy =>
      hys y (List.mem_reverse.mp hy)]
  · obtain ⟨y, hy, hblank⟩ : ∃ y ∈ ys, blank y = false := by
      simpa using hys
    have hne : ys.reverse.dropWhile blank ≠ [] := by
      intro h
      have := List.dropWhile_eq_nil_iff.mp h y (List.mem_reverse.mpr hy)
      rw [hblank] at this
      cases this
    have hright : (xs.dropWhile blank ++ ys).rdropWhile blank =
        xs.dropWhile blank ++ ys.rdropWhile blank := by
      unfold List.rdropWhile
      rw [List.reverse_append, List.dropWhile_append]
      simp [hne]
    refine .inr ⟨⟨y, hy, hblank⟩, (xs.dropWhile blank).rtakeWhile blank ++
      ys.rdropWhile blank, ?_, ?_, fun z hz => ?_⟩
    · refine List.append_ne_nil_of_right_ne_nil _ fun h => hne ?_
      exact List.reverse_eq_nil_iff.mp h
    · rw [hright, ← List.append_assoc, List.rdropWhile_append_rtakeWhile]
    · rw [List.mem_append]
      rcases List.mem_append.mp hz with hz | hz
      · exact .inl ((List.dropWhile_sublist blank).subset
          ((List.rtakeWhile_suffix blank _).subset hz))
      · exact .inr ((List.rdropWhile_prefix blank _).subset hz)

private theorem trimList_trimList :
    trimList blank (trimList blank xs) = trimList blank xs := by
  have hfirst : (trimList blank xs).dropWhile blank = trimList blank xs := by
    have hprefix := List.rdropWhile_prefix blank (xs.dropWhile blank)
    rw [List.dropWhile_eq_self_iff]
    intro hpos
    have hpos' : 0 < (xs.dropWhile blank).length :=
      Nat.lt_of_lt_of_le hpos hprefix.length_le
    have hhead : (trimList blank xs)[0] = (xs.dropWhile blank)[0] :=
      hprefix.getElem hpos
    rw [hhead]
    exact List.dropWhile_get_zero_not blank xs hpos'
  conv_lhs => rw [trimList, hfirst, trimList]
  exact List.rdropWhile_idempotent ..

/-- What is dropped leaves nothing where blanks are written as nothing. -/
private theorem flatMap_trimList {β : Type} {g : α → List β}
    (h : ∀ x ∈ xs, blank x = true → g x = []) :
    (trimList blank xs).flatMap g = xs.flatMap g := by
  have hleft : (xs.dropWhile blank).flatMap g = xs.flatMap g := by
    have hnil : (xs.takeWhile blank).flatMap g = [] :=
      List.flatMap_eq_nil_iff.mpr fun x hx => h x
        ((List.takeWhile_sublist blank).subset hx) (List.mem_takeWhile_imp hx)
    conv_rhs => rw [← List.takeWhile_append_dropWhile (p := blank) (l := xs)]
    rw [List.flatMap_append, hnil, List.nil_append]
  have hright : ((xs.dropWhile blank).rtakeWhile blank).flatMap g = [] :=
    List.flatMap_eq_nil_iff.mpr fun x hx => h x
      ((List.dropWhile_sublist blank).subset
        ((List.rtakeWhile_suffix blank _).subset hx)) (List.mem_rtakeWhile_imp hx)
  rw [← hleft, trimList]
  conv_rhs => rw [← List.rdropWhile_append_rtakeWhile (p := blank)
    (l := xs.dropWhile blank)]
  rw [List.flatMap_append, hright, List.append_nil]

end TrimList

/-- What is kept of a text, where nothing is kept of its white space, is kept of
the trimmed text. -/
theorem filter_trimSpace {s : GoString} {keep : UInt8 → Bool}
    (h : ∀ r ∈ runes s, isSpace r.1 = true → r.2.filter keep = []) :
    (trimSpace s).filter keep = (runes s).flatMap fun r => r.2.filter keep := by
  rw [trimSpace_eq, List.filter_flatMap]
  exact flatMap_trimList h

/-- A text is trimmed to nothing when all of it is white space. -/
theorem trimSpace_eq_nil_iff {s : GoString} :
    trimSpace s = [] ↔ ∀ r ∈ runes s, isSpace r.1 = true := by
  rw [trimSpace_eq, List.flatMap_eq_nil_iff]
  constructor
  · intro h r hr
    rcases @mem_trimList _ (fun r => isSpace r.1) _ _ hr with hb | hmem
    · exact hb
    · exact absurd (h r hmem) (mem_runes _ s (Nat.le_refl _) r hr).1
  · intro h r hr
    rw [trimList_eq_nil.mpr h] at hr
    cases hr

/-- Trimming a text twice. -/
theorem trimSpace_trimSpace (s : GoString) :
    s.trimSpace.trimSpace = s.trimSpace := by
  have hpart : trimList (fun r => isSpace r.1) (runes s) <:+: runes s :=
    (List.rdropWhile_prefix _ _).isInfix.trans
      (List.dropWhile_suffix _).isInfix
  obtain ⟨as, bs, hsplit⟩ := hpart
  rw [List.append_assoc] at hsplit
  have hright := (runes_of_append s hsplit.symm).2
  have hruns : runes (trimSpace s) =
      trimList (fun r => isSpace r.1) (runes s) :=
    (runes_of_append _ hright).1
  rw [trimSpace_eq (trimSpace s), hruns, trimList_trimList, ← trimSpace_eq]

/-- **When a text is trimmed to what its beginning is trimmed to**: nothing but
white space follows.  The word is one of ASCII bytes. -/
theorem trimSpace_append_iff {s t : GoString} (hne : trimSpace s ≠ [])
    (hascii : ∀ b ∈ trimSpace s, b < 0x80) :
    trimSpace (s ++ t) = trimSpace s ↔ trimSpace t = [] := by
  have hkept : trimList (fun r => isSpace r.1) (runes s) ≠ [] := by
    intro h
    rw [trimSpace_eq, h] at hne
    exact hne rfl
  have hproper : ∀ r ∈ runes s, Proper r := by
    intro r hr
    rcases @mem_trimList _ (fun r => isSpace r.1) _ _ hr with hblank | hmem
    · exact proper_of_isSpace hblank
    · refine proper_of_ascii hr fun b hb => hascii b ?_
      rw [trimSpace_eq]
      exact List.mem_flatMap.mpr ⟨r, hmem, hb⟩
  rw [trimSpace_eq_nil_iff, trimSpace_eq, trimSpace_eq,
    runes_append _ s (Nat.le_refl _) hproper]
  rcases trimList_append hkept (runes t) with
    ⟨hall, heq⟩ | ⟨⟨r, hr, hr'⟩, zs, hzs, heq, hmem⟩
  · rw [heq]
    exact ⟨fun _ => hall, fun _ => rfl⟩
  · rw [heq, List.flatMap_append]
    constructor
    · intro h
      exfalso
      have hnil : zs.flatMap (·.2) = [] := by simpa using h
      obtain ⟨z, zs', rfl⟩ := List.exists_cons_of_ne_nil hzs
      have hz : z.2 = [] := List.flatMap_eq_nil_iff.mp hnil z List.mem_cons_self
      rcases List.mem_append.mp (hmem z List.mem_cons_self) with hz' | hz'
      · exact (mem_runes _ s (Nat.le_refl _) z hz').1 hz
      · exact (mem_runes _ t (Nat.le_refl _) z hz').1 hz
    · intro h
      rw [h r hr] at hr'
      cases hr'

end GoString

end Hdns.Verified

import Hdns.Verified.GoPath
import Mathlib.Data.List.TakeWhile

/-!
# Paths joined to a directory

A text that is joined to a directory is read from there: it climbs a number of
steps and goes down again by names.  The reading does not depend on the
directory, and the joined path depends on nothing but the reading.

## Main results

* `join_eq` — the joined path, from the directory and the reading.
* `join_eq_iff` — when two texts lead from a directory to the same path.
* `below_join_iff` — when a text leads to a path below the directory.
-/

namespace Hdns.Verified

namespace GoPath

/-- How a text is read from a directory: so many steps up, and then these
names, the last one first. -/
structure Reading where
  ups : Nat
  names : List GoString
  deriving DecidableEq, Repr

/-- The next element of the text. -/
def Reading.step (r : Reading) (e : GoString) : Reading :=
  if e = [] ∨ e = dot then r
  else if e = dotDot then
    match r.names with
    | [] => ⟨r.ups + 1, []⟩
    | _ :: ns => ⟨r.ups, ns⟩
  else ⟨r.ups, e :: r.names⟩

def reading (s : GoString) : Reading :=
  (elements s).foldl Reading.step ⟨0, []⟩

/-- The elements `Clean` keeps of a path, the last one first. -/
def keptOf (s : GoString) : List GoString :=
  (elements s).foldl (cleanStep (isRooted s)) []

/-- What is left of a directory after so many steps up. -/
def climb (rooted : Bool) (es : List GoString) : Nat → List GoString
  | 0 => es
  | n + 1 => cleanStep rooted (climb rooted es n) dotDot

/-- Where a reading leads from a directory. -/
def Reading.under (r : Reading) (rooted : Bool) (es : List GoString) :
    List GoString :=
  r.names ++ climb rooted es r.ups

/-! ## The names of a reading -/

theorem Reading.step_plain {r : Reading} {e : GoString} (he : slash ∉ e)
    (h : ∀ n ∈ r.names, Plain n) : ∀ n ∈ (r.step e).names, Plain n := by
  unfold Reading.step
  by_cases hskip : e = [] ∨ e = dot
  · rw [if_pos hskip]
    exact h
  rw [if_neg hskip]
  obtain ⟨hnil, hdot⟩ := not_or.mp hskip
  by_cases hup : e = dotDot
  · rw [if_pos hup]
    cases hnames : r.names with
    | nil => exact fun n hn => nomatch hn
    | cons k ks =>
        intro n hn
        exact h n (hnames ▸ List.mem_cons_of_mem k hn)
  · rw [if_neg hup]
    intro n hn
    rcases List.mem_cons.mp hn with rfl | hn
    · exact ⟨hnil, hdot, hup, he⟩
    · exact h n hn

theorem foldl_step_plain :
    ∀ (es : List GoString), (∀ e ∈ es, slash ∉ e) → ∀ r : Reading,
      (∀ n ∈ r.names, Plain n) →
        ∀ n ∈ (es.foldl Reading.step r).names, Plain n := by
  intro es
  induction es with
  | nil => exact fun _ _ h => h
  | cons e es ih =>
      intro hes r h
      exact ih (fun x hx => hes x (List.mem_cons_of_mem e hx)) _
        (Reading.step_plain (hes e List.mem_cons_self) h)

/-- The names of a reading are file names. -/
theorem reading_plain (s : GoString) : ∀ n ∈ (reading s).names, Plain n :=
  foldl_step_plain _ (slash_not_mem_elements s) _ nofun

/-! ## Reading and cleaning -/

/-- A step of `Clean` below a directory is a step of the reading. -/
theorem cleanStep_under {rooted : Bool} {es : List GoString} {r : Reading}
    (h : ∀ n ∈ r.names, Plain n) (e : GoString) :
    cleanStep rooted (r.under rooted es) e = (r.step e).under rooted es := by
  unfold Reading.step
  by_cases hskip : e = [] ∨ e = dot
  · rw [if_pos hskip]
    exact if_pos hskip
  rw [if_neg hskip]
  by_cases hup : e = dotDot
  · rw [if_pos hup, hup]
    unfold Reading.under
    cases hnames : r.names with
    | nil => rfl
    | cons k ks =>
        have hk : k ≠ dotDot := (h k (hnames ▸ List.mem_cons_self)).ne_dotDot
        exact if_neg hk
  · rw [if_neg hup]
    unfold cleanStep
    rw [if_neg hskip, if_neg hup]
    rfl

theorem foldl_under {rooted : Bool} {es : List GoString} :
    ∀ (parts : List GoString), (∀ e ∈ parts, slash ∉ e) → ∀ r : Reading,
      (∀ n ∈ r.names, Plain n) →
        parts.foldl (cleanStep rooted) (r.under rooted es) =
          (parts.foldl Reading.step r).under rooted es := by
  intro parts
  induction parts with
  | nil => exact fun _ _ _ => rfl
  | cons e parts ih =>
      intro hparts r h
      rw [List.foldl_cons, List.foldl_cons, cleanStep_under h]
      exact ih (fun x hx => hparts x (List.mem_cons_of_mem e hx)) _
        (Reading.step_plain (hparts e List.mem_cons_self) h)

theorem kept_climb {rooted : Bool} {es : List GoString}
    (h : Kept rooted es) : ∀ n, Kept rooted (climb rooted es n) := by
  intro n
  induction n with
  | zero => exact h
  | succ n ih => exact kept_cleanStep ih (by decide)

theorem kept_append {rooted : Bool} {es : List GoString}
    (h : Kept rooted es) :
    ∀ {ns : List GoString}, (∀ n ∈ ns, Plain n) → Kept rooted (ns ++ es) := by
  intro ns
  induction ns with
  | nil => exact fun _ => h
  | cons n ns ih =>
      intro hns
      exact (hns n List.mem_cons_self).kept
        (ih fun x hx => hns x (List.mem_cons_of_mem n hx))

theorem kept_under {rooted : Bool} {es : List GoString}
    (h : Kept rooted es) (s : GoString) :
    Kept rooted ((reading s).under rooted es) :=
  kept_append (kept_climb h _) (reading_plain s)

/-! ## The joined path -/

theorem kept_keptOf (s : GoString) : Kept (isRooted s) (keptOf s) :=
  kept_foldl _ (slash_not_mem_elements s) [] trivial

theorem clean_eq (s : GoString) :
    clean s = render (isRooted s) (keptOf s).reverse := rfl

theorem render_inj {rooted : Bool} {es es' : List GoString}
    (h : Kept rooted es) (h' : Kept rooted es') :
    render rooted es.reverse = render rooted es'.reverse ↔ es = es' := by
  refine ⟨fun heq => ?_, fun heq => by rw [heq]⟩
  rw [← foldl_elements_render h, heq, foldl_elements_render h']

/-- What is cleaned behind a directory is read from there. -/
theorem clean_append (d s : GoString) (hd : d ≠ []) :
    clean (d ++ slash :: s) =
      render (isRooted d) ((reading s).under (isRooted d) (keptOf d)).reverse
        := by
  have helements : elements (d ++ slash :: s) = elements d ++ elements s :=
    List.splitOn_append_cons_self _ _
  have hread := @foldl_under (isRooted d) (keptOf d) (elements s)
    (slash_not_mem_elements s) ⟨0, []⟩ nofun
  rw [clean, isRooted_append _ hd, cleanElements, helements,
    List.foldl_append]
  exact congrArg (fun es => render (isRooted d) es.reverse) hread

/-- **The joined path.** -/
theorem join_eq (d s : GoString) (hd : d ≠ []) :
    join [d, s] =
      render (isRooted d) ((reading s).under (isRooted d) (keptOf d)).reverse
        := by
  have hjoin : join [d, s] = clean (d ++ slash :: s) := by
    simp [join, hd, GoString.join]
  rw [hjoin, clean_append d s hd]

@[simp] theorem isRooted_clean (s : GoString) :
    isRooted (clean s) = isRooted s :=
  isRooted_render (kept_keptOf s)

@[simp] theorem keptOf_clean (s : GoString) : keptOf (clean s) = keptOf s := by
  have hfold := foldl_elements_render (kept_keptOf s)
  rw [← clean_eq] at hfold
  rw [keptOf, isRooted_clean, hfold]

/-- The directory may be cleaned first. -/
theorem join_clean (d s : GoString) (hd : d ≠ []) :
    join [clean d, s] = clean (d ++ slash :: s) := by
  have hne : clean d ≠ [] := render_ne_nil (kept_keptOf d)
  rw [join_eq _ s hne, isRooted_clean, keptOf_clean, clean_append d s hd]

/-- Joining part by part. -/
theorem join_snoc {parts : List GoString} (h : ∃ p ∈ parts, p ≠ [])
    (s : GoString) : join (parts ++ [s]) = join [join parts, s] := by
  have hne : parts.dropWhile (· = []) ≠ [] := by
    intro hnil
    obtain ⟨p, hp, hpne⟩ := h
    have hall := List.dropWhile_eq_nil_iff.mp hnil p hp
    exact hpne (of_decide_eq_true hall)
  have hdrop : (parts ++ [s]).dropWhile (· = []) =
      parts.dropWhile (· = []) ++ [s] := by
    rw [List.dropWhile_append, if_neg (by simpa using hne)]
  have hparts : join parts =
      clean (GoString.join (parts.dropWhile (· = [])) [slash]) := by
    unfold join
    cases hcases : parts.dropWhile (· = []) with
    | nil => exact absurd hcases hne
    | cons q qs => rfl
  have hall : join (parts ++ [s]) = clean (GoString.join
      (parts.dropWhile (· = []) ++ [s]) [slash]) := by
    unfold join
    rw [hdrop]
    cases hcases : parts.dropWhile (· = []) with
    | nil => exact absurd hcases hne
    | cons q qs => rfl
  have hjoin : GoString.join (parts.dropWhile (· = [])) [slash] ≠ [] := by
    cases hcases : parts.dropWhile (· = []) with
    | nil => exact absurd hcases hne
    | cons q qs =>
        have hq : q ≠ [] := by
          have hhead := List.head?_dropWhile_not (fun p : GoString => p = [])
            parts
          rw [hcases] at hhead
          simpa using hhead
        cases qs with
        | nil => simpa [GoString.join] using hq
        | cons r rs => simp [GoString.join]
  rw [hall, join_concat s hne, hparts, join_clean _ s hjoin]

/-- Joining part by part, for three parts. -/
theorem join_join (p n s : GoString) (hn : n ≠ []) :
    join [p, n, s] = join [join [p, n], s] := by
  have hparts : ∃ q ∈ [p, n], q ≠ [] := ⟨n, by simp, hn⟩
  exact join_snoc hparts s

/-! ## Two texts in one directory -/

/-- One of two readings climbs at least as far, comes back by names to where
the other has stopped, and goes on by the same names as the other. -/
def Reading.Meets (rooted : Bool) (es : List GoString) (r r' : Reading) :
    Prop :=
  (∃ back, r'.names = r.names ++ back ∧
      back ++ climb rooted es r'.ups = climb rooted es r.ups) ∨
    ∃ back, r.names = r'.names ++ back ∧
      back ++ climb rooted es r.ups = climb rooted es r'.ups

theorem under_eq_iff {rooted : Bool} {es : List GoString} {r r' : Reading} :
    r.under rooted es = r'.under rooted es ↔ r.Meets rooted es r' := by
  unfold Reading.under Reading.Meets
  rw [List.append_eq_append_iff]
  constructor
  · rintro (⟨back, hnames, hclimb⟩ | ⟨back, hnames, hclimb⟩)
    · exact .inl ⟨back, hnames, hclimb.symm⟩
    · exact .inr ⟨back, hnames, hclimb.symm⟩
  · rintro (⟨back, hnames, hclimb⟩ | ⟨back, hnames, hclimb⟩)
    · exact .inl ⟨back, hnames, hclimb.symm⟩
    · exact .inr ⟨back, hnames, hclimb.symm⟩

/-- **Two texts lead to one path** if and only if their readings meet. -/
theorem join_eq_iff {d : GoString} (hd : d ≠ []) (s s' : GoString) :
    join [d, s] = join [d, s'] ↔
      (reading s).Meets (isRooted d) (keptOf d) (reading s') := by
  rw [join_eq d s hd, join_eq d s' hd,
    render_inj (kept_under (kept_keptOf d) s) (kept_under (kept_keptOf d) s'),
    under_eq_iff]

/-! ## Below a directory -/

/-- A path strictly below a directory: names joined to it. -/
def Below (d p : GoString) : Prop :=
  ∃ names : List GoString, names ≠ [] ∧ (∀ n ∈ names, Plain n) ∧
    p = join (d :: names)

/-- The reading ends below the directory: it climbs, comes back by the names it
has climbed past, and goes on by at least one more. -/
def Reading.Inside (rooted : Bool) (es : List GoString) (r : Reading) : Prop :=
  ∃ ns back, ns ≠ [] ∧ r.names = ns ++ back ∧
    back ++ climb rooted es r.ups = es

/-- Climbing removes elements, or it has reached what cannot be removed. -/
theorem climb_cases (rooted : Bool) (es : List GoString) :
    ∀ n, climb rooted es n <:+ es ∨
      (climb rooted es n).head? = some dotDot := by
  intro n
  induction n with
  | zero => exact .inl (List.suffix_refl es)
  | succ n ih =>
      show cleanStep rooted (climb rooted es n) dotDot <:+ es ∨
        (cleanStep rooted (climb rooted es n) dotDot).head? = some dotDot
      cases hleft : climb rooted es n with
      | nil =>
          cases rooted with
          | true => exact .inl (List.nil_suffix)
          | false => exact .inr rfl
      | cons k ks =>
          by_cases hk : k = dotDot
          · right
            subst hk
            rfl
          · have hstep : cleanStep rooted (k :: ks) dotDot = ks := if_neg hk
            rw [hleft] at ih
            rcases ih with hsuffix | hhead
            · rw [hstep]
              exact .inl ((List.suffix_cons k ks).trans hsuffix)
            · exact absurd (Option.some.inj hhead) hk

/-- Names do not make up for what has been climbed past. -/
theorem climb_eq_append {rooted : Bool} {es ns : List GoString} {n : Nat}
    (hns : ∀ x ∈ ns, Plain x) (h : climb rooted es n = ns ++ es) : ns = [] := by
  cases ns with
  | nil => rfl
  | cons k ks =>
      rcases climb_cases rooted es n with hsuffix | hhead
      · have hlength := hsuffix.length_le
        rw [h, List.length_append, List.length_cons] at hlength
        omega
      · rw [h] at hhead
        exact absurd (Option.some.inj hhead)
          (hns k List.mem_cons_self).ne_dotDot

theorem under_below_iff {rooted : Bool} {es : List GoString} {r : Reading}
    (hr : ∀ n ∈ r.names, Plain n) :
    (∃ ns, ns ≠ [] ∧ (∀ n ∈ ns, Plain n) ∧ r.under rooted es = ns ++ es) ↔
      r.Inside rooted es := by
  constructor
  · rintro ⟨ns, hne, hns, heq⟩
    rcases List.append_eq_append_iff.mp heq with ⟨as, hnames, hclimb⟩ |
      ⟨back, hnames, hes⟩
    · have has : as = [] := climb_eq_append
        (fun x hx => hns x (hnames ▸ List.mem_append_right _ hx)) hclimb
      subst has
      rw [List.append_nil] at hnames
      exact ⟨ns, [], hne, by rw [hnames, List.append_nil], hclimb⟩
    · exact ⟨ns, back, hne, hnames, hes.symm⟩
  · rintro ⟨ns, back, hne, hnames, hback⟩
    refine ⟨ns, hne, fun n hn => hr n ?_, ?_⟩
    · rw [hnames]
      exact List.mem_append_left _ hn
    · rw [Reading.under, hnames, List.append_assoc, hback]

theorem foldl_step_names :
    ∀ (ns : List GoString), (∀ n ∈ ns, Plain n) → ∀ r : Reading,
      ns.foldl Reading.step r = ⟨r.ups, ns.reverse ++ r.names⟩ := by
  intro ns
  induction ns with
  | nil => exact fun _ _ => rfl
  | cons n ns ih =>
      intro hns r
      have hn := hns n List.mem_cons_self
      have hstep : r.step n = ⟨r.ups, n :: r.names⟩ := by
        unfold Reading.step
        rw [if_neg (not_or.mpr ⟨hn.ne_nil, hn.ne_dot⟩), if_neg hn.ne_dotDot]
      rw [List.foldl_cons, hstep, ih fun x hx => hns x
        (List.mem_cons_of_mem n hx)]
      simp

/-- File names behind a directory. -/
theorem join_names {d : GoString} (hd : d ≠ []) {ns : List GoString}
    (hne : ns ≠ []) (hns : ∀ n ∈ ns, Plain n) :
    join (d :: ns) =
      render (isRooted d) (ns.reverse ++ keptOf d).reverse := by
  have hjoin : join (d :: ns) = join [d, GoString.join ns [slash]] := by
    cases ns with
    | nil => exact absurd rfl hne
    | cons n ns => simp [join, hd, GoString.join]
  have hread : reading (GoString.join ns [slash]) = ⟨0, ns.reverse⟩ := by
    rw [reading, elements_join (fun n hn => (hns n hn).no_slash) hne,
      foldl_step_names ns hns, List.append_nil]
  rw [hjoin, join_eq d _ hd, hread]
  rfl

/-- **A text leads below a directory** if and only if its reading ends there. -/
theorem below_join_iff {d : GoString} (hd : d ≠ []) (s : GoString) :
    Below d (join [d, s]) ↔ (reading s).Inside (isRooted d) (keptOf d) := by
  rw [← under_below_iff (reading_plain s), join_eq d s hd]
  constructor
  · rintro ⟨ns, hne, hns, heq⟩
    have hplain : ∀ n ∈ ns.reverse, Plain n :=
      fun n hn => hns n (List.mem_reverse.mp hn)
    rw [join_names hd hne hns, render_inj (kept_under (kept_keptOf d) s)
      (kept_append (kept_keptOf d) hplain)] at heq
    exact ⟨ns.reverse, by simpa using hne, hplain, heq⟩
  · rintro ⟨ns, hne, hns, heq⟩
    have hplain : ∀ n ∈ ns.reverse, Plain n :=
      fun n hn => hns n (List.mem_reverse.mp hn)
    refine ⟨ns.reverse, by simpa using hne, hplain, ?_⟩
    rw [join_names hd (by simpa using hne) hplain, List.reverse_reverse, heq]

/-- A file in a directory below is below. -/
theorem Below.join {d p n : GoString} (hd : d ≠ []) (h : Below d p)
    (hn : Plain n) : Below d (GoPath.join [p, n]) := by
  obtain ⟨ns, hne, hns, rfl⟩ := h
  have hall : ∀ x ∈ ns ++ [n], Plain x := by
    intro x hx
    rcases List.mem_append.mp hx with hx | hx
    · exact hns x hx
    · exact List.mem_singleton.mp hx ▸ hn
  have hplain : ∀ x ∈ ns.reverse, Plain x :=
    fun x hx => hns x (List.mem_reverse.mp hx)
  refine ⟨ns ++ [n], by simp, hall, ?_⟩
  rw [join_names hd hne hns, join_names hd (by simp) hall,
    join_render (kept_append (kept_keptOf d) hplain) hn]
  simp

end GoPath

end Hdns.Verified

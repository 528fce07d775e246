import Hdns.Verified.GoString

/-!
# Slash-separated paths

`filepath.Clean`, `Join` and `Dir` as Go defines them on Unix, all by lexical
processing.  A cleaned path is given by its elements: whether it starts at the
root, and the names between the slashes, none of them empty or `.`, and `..`
only in front of a path that does not start at the root.

## Main results

* `clean_clean` — a cleaned path is clean.
* `dir_join`, `join_inj` — a name joined to a clean directory gives a path that
  determines both.
-/

namespace Hdns.Verified

namespace GoPath

open GoString

def slash : UInt8 := 0x2F
def dot : GoString := "."
def dotDot : GoString := ".."

/-- The pieces between the slashes of a text, at least one. -/
def elements (s : GoString) : List GoString := s.splitOn slash

/-- One step of `Clean`: the elements kept so far, last one first, and the
next element. -/
def cleanStep (rooted : Bool) (kept : List GoString) (e : GoString) :
    List GoString :=
  if e = [] ∨ e = dot then kept
  else if e = dotDot then
    match kept with
    | [] => if rooted then [] else [dotDot]
    | k :: ks => if k = dotDot then dotDot :: k :: ks else ks
  else e :: kept

/-- The elements `Clean` keeps, in order. -/
def cleanElements (rooted : Bool) (es : List GoString) : List GoString :=
  (es.foldl (cleanStep rooted) []).reverse

def isRooted (s : GoString) : Bool := s.head? == some slash

/-- The path with the given elements. -/
def render (rooted : Bool) (es : List GoString) : GoString :=
  if rooted then slash :: GoString.join es [slash]
  else if es = [] then dot
  else GoString.join es [slash]

/-- `filepath.Clean`. -/
def clean (s : GoString) : GoString :=
  render (isRooted s) (cleanElements (isRooted s) (elements s))

/-- `filepath.Join`: empty elements in front are ignored. -/
def join (parts : List GoString) : GoString :=
  match parts.dropWhile (· = []) with
  | [] => []
  | ps => clean (GoString.join ps [slash])

/-- Everything up to and including the last slash. -/
def upToLastSlash (s : GoString) : GoString :=
  (s.reverse.dropWhile (· ≠ slash)).reverse

/-- `filepath.Dir`. -/
def dir (s : GoString) : GoString := clean (upToLastSlash s)

/-! ## Elements -/

theorem elements_append_slash (s : GoString) {n : GoString} (hn : slash ∉ n) :
    elements (s ++ slash :: n) = elements s ++ [n] := by
  rw [elements, List.splitOn_append_cons_self, List.splitOn_eq_singleton hn]
  rfl

theorem elements_join {es : List GoString} (hes : ∀ e ∈ es, slash ∉ e)
    (hne : es ≠ []) : elements (GoString.join es [slash]) = es :=
  List.splitOn_intercalate slash hes hne

theorem slash_not_mem_elements :
    ∀ (s : GoString), ∀ e ∈ elements s, slash ∉ e := by
  intro s
  induction s with
  | nil => simp [elements]
  | cons b s ih =>
      intro e he
      rw [elements, List.splitOn_cons_eq_if_modifyHead] at he
      by_cases hb : b = slash
      · rw [if_pos (by simp [hb])] at he
        rcases List.mem_cons.mp he with rfl | he
        · exact List.not_mem_nil
        · exact ih e he
      · rw [if_neg (by simpa using hb)] at he
        cases hs : elements s with
        | nil => exact absurd hs (List.splitOn_ne_nil _ _)
        | cons x xs =>
            rw [hs] at ih
            rw [← elements, hs, List.modifyHead_cons] at he
            rcases List.mem_cons.mp he with rfl | he
            · have hx := ih x List.mem_cons_self
              simp [Ne.symm hb, hx]
            · exact ih e (List.mem_cons_of_mem x he)

/-! ## What `Clean` keeps -/

/-- The elements of a cleaned path, last one first: names, and below them `..`
if the path does not start at the root. -/
def Kept (rooted : Bool) : List GoString → Prop
  | [] => True
  | e :: es =>
      Kept rooted es ∧ e ≠ [] ∧ e ≠ dot ∧ slash ∉ e ∧
        (e = dotDot → rooted = false ∧ ∀ x ∈ es, x = dotDot)

theorem Kept.no_slash {rooted : Bool} :
    ∀ {es : List GoString}, Kept rooted es → ∀ e ∈ es, slash ∉ e := by
  intro es
  induction es with
  | nil => exact fun _ _ he => nomatch he
  | cons e es ih =>
      rintro ⟨hes, _, _, hslash, _⟩ x hx
      rcases List.mem_cons.mp hx with rfl | hx
      · exact hslash
      · exact ih hes x hx

theorem kept_cleanStep {rooted : Bool} {es : List GoString} {e : GoString}
    (hes : Kept rooted es) (he : slash ∉ e) :
    Kept rooted (cleanStep rooted es e) := by
  unfold cleanStep
  by_cases hskip : e = [] ∨ e = dot
  · rw [if_pos hskip]
    exact hes
  · rw [if_neg hskip]
    obtain ⟨hnil, hdot⟩ := not_or.mp hskip
    by_cases hup : e = dotDot
    · rw [if_pos hup]
      cases es with
      | nil =>
          cases rooted with
          | true => trivial
          | false => exact ⟨trivial, by decide, by decide, by decide, by simp⟩
      | cons k ks =>
          by_cases hk : k = dotDot
          · subst hk
            obtain ⟨hrooted, hks⟩ := hes.2.2.2.2 rfl
            refine ⟨hes, by decide, by decide, by decide, fun _ =>
              ⟨hrooted, fun x hx => ?_⟩⟩
            rcases List.mem_cons.mp hx with rfl | hx
            · rfl
            · exact hks x hx
          · simp only [if_neg hk]
            exact hes.1
    · rw [if_neg hup]
      exact ⟨hes, hnil, hdot, he, fun h => absurd h hup⟩

theorem kept_foldl {rooted : Bool} :
    ∀ (es : List GoString), (∀ e ∈ es, slash ∉ e) → ∀ ks, Kept rooted ks →
      Kept rooted (es.foldl (cleanStep rooted) ks) := by
  intro es
  induction es with
  | nil => exact fun _ _ hks => hks
  | cons e es ih =>
      intro hes ks hks
      exact ih (fun x hx => hes x (List.mem_cons_of_mem e hx)) _
        (kept_cleanStep hks (hes e List.mem_cons_self))

/-- A name that is no step up is kept. -/
theorem cleanStep_of_kept {rooted : Bool} {e : GoString} {es : List GoString}
    (h : Kept rooted (e :: es)) : cleanStep rooted es e = e :: es := by
  obtain ⟨_, hnil, hdot, _, hup⟩ := h
  unfold cleanStep
  rw [if_neg (not_or.mpr ⟨hnil, hdot⟩)]
  by_cases he : e = dotDot
  · obtain ⟨hrooted, hes⟩ := hup he
    rw [if_pos he]
    cases es with
    | nil => simp [hrooted, he]
    | cons k ks => simp [hes k List.mem_cons_self, he]
  · rw [if_neg he]

theorem foldl_cleanStep {rooted : Bool} :
    ∀ {es : List GoString}, Kept rooted es →
      es.reverse.foldl (cleanStep rooted) [] = es := by
  intro es
  induction es with
  | nil => exact fun _ => rfl
  | cons e es ih =>
      intro h
      rw [List.reverse_cons, List.foldl_append, ih h.1]
      exact cleanStep_of_kept h

/-! ## Cleaned paths -/

theorem foldl_elements_render {rooted : Bool} {es : List GoString}
    (h : Kept rooted es) :
    (elements (render rooted es.reverse)).foldl (cleanStep rooted) [] = es := by
  have hslash : ∀ e ∈ es.reverse, slash ∉ e :=
    fun e he => h.no_slash e (List.mem_reverse.mp he)
  have hskip : cleanStep rooted [] [] = [] := if_pos (.inl rfl)
  by_cases hes : es = []
  · subst hes
    cases rooted <;> rfl
  · have hne : es.reverse ≠ [] := fun h => hes (List.reverse_eq_nil_iff.mp h)
    cases rooted with
    | true =>
        have hroot : elements (render true es.reverse) =
            [] :: es.reverse := by
          rw [render, if_pos rfl, ← List.nil_append (slash :: _), elements,
            List.splitOn_append_cons_self, ← elements, ← elements,
            elements_join hslash hne]
          rfl
        rw [hroot, List.foldl_cons, hskip, foldl_cleanStep h]
    | false =>
        rw [render, if_neg Bool.false_ne_true, if_neg hne,
          elements_join hslash hne, foldl_cleanStep h]

/-- A text that starts with an element starts with no slash. -/
private theorem isRooted_join {e : GoString} (es : List GoString)
    (hnil : e ≠ []) (hslash : slash ∉ e) :
    isRooted (GoString.join (e :: es) [slash]) = false := by
  cases e with
  | nil => exact absurd rfl hnil
  | cons b bs =>
      have hb : b ≠ slash := fun h => hslash (h ▸ List.mem_cons_self)
      cases es with
      | nil => simpa [GoString.join, isRooted] using hb
      | cons k ks => simpa [GoString.join, isRooted] using hb

theorem isRooted_render {rooted : Bool} {es : List GoString}
    (h : Kept rooted es) : isRooted (render rooted es.reverse) = rooted := by
  cases rooted with
  | true => rfl
  | false =>
      have hall : ∀ e ∈ es, e ≠ [] ∧ slash ∉ e := by
        induction es with
        | nil => exact fun _ he => nomatch he
        | cons k ks ih =>
            intro e he
            rcases List.mem_cons.mp he with rfl | he
            · exact ⟨h.2.1, h.2.2.2.1⟩
            · exact ih h.1 e he
      cases hrev : es.reverse with
      | nil => rfl
      | cons e rest =>
          have hmem : e ∈ es := by
            rw [← List.mem_reverse, hrev]
            exact List.mem_cons_self
          exact isRooted_join rest (hall e hmem).1 (hall e hmem).2

/-- What `Clean` makes of the elements of a path. -/
theorem clean_eq_render (s : GoString) :
    ∃ es, Kept (isRooted s) es ∧ clean s = render (isRooted s) es.reverse :=
  ⟨_, kept_foldl _ (slash_not_mem_elements s) [] trivial, rfl⟩

theorem clean_render {rooted : Bool} {es : List GoString}
    (h : Kept rooted es) :
    clean (render rooted es.reverse) = render rooted es.reverse := by
  rw [clean, isRooted_render h, cleanElements, foldl_elements_render h]

@[simp] theorem clean_clean (s : GoString) : clean (clean s) = clean s := by
  obtain ⟨es, hes, hs⟩ := clean_eq_render s
  rw [hs, clean_render hes]

/-- A clean path is given by its elements. -/
theorem exists_render {d : GoString} (h : clean d = d) :
    ∃ rooted es, Kept rooted es ∧ d = render rooted es.reverse := by
  obtain ⟨es, hes, hd⟩ := clean_eq_render d
  exact ⟨_, es, hes, h.symm.trans hd⟩

theorem clean_join {p : GoString} (ps : List GoString) (hp : p ≠ []) :
    clean (join (p :: ps)) = join (p :: ps) := by
  simp [join, hp]

/-! ## Names in directories -/

/-- A file name: one element, and no step up. -/
structure Plain (n : GoString) : Prop where
  ne_nil : n ≠ []
  ne_dot : n ≠ dot
  ne_dotDot : n ≠ dotDot
  no_slash : slash ∉ n

theorem Plain.kept {n : GoString} (h : Plain n) {rooted : Bool}
    {es : List GoString} (hes : Kept rooted es) : Kept rooted (n :: es) :=
  ⟨hes, h.ne_nil, h.ne_dot, h.no_slash, fun hn => absurd hn h.ne_dotDot⟩

theorem kept_of_plain {rooted : Bool} :
    ∀ {es : List GoString}, (∀ e ∈ es, Plain e) → Kept rooted es := by
  intro es
  induction es with
  | nil => exact fun _ => trivial
  | cons e es ih =>
      intro h
      exact (h e List.mem_cons_self).kept
        (ih fun x hx => h x (List.mem_cons_of_mem e hx))

theorem render_ne_nil {rooted : Bool} {es : List GoString}
    (h : Kept rooted es) : render rooted es.reverse ≠ [] := by
  intro hnil
  have hclean := clean_render h
  rw [hnil] at hclean
  exact absurd hclean (by decide)

theorem isRooted_append {s : GoString} (t : GoString) (h : s ≠ []) :
    isRooted (s ++ t) = isRooted s := by
  cases s with
  | nil => exact absurd rfl h
  | cons b bs => rfl

/-- One more element after a clean path. -/
private theorem clean_append_slash {rooted : Bool} {es : List GoString}
    (h : Kept rooted es) {n : GoString} (hn : slash ∉ n) :
    clean (render rooted es.reverse ++ slash :: n) =
      render rooted (cleanStep rooted es n).reverse := by
  rw [clean, isRooted_append _ (render_ne_nil h), isRooted_render h,
    elements_append_slash _ hn, cleanElements, List.foldl_append,
    foldl_elements_render h]
  rfl

/-- A step behind a name. -/
theorem cleanStep_cons {rooted : Bool} {n e : GoString} {ns : List GoString}
    (hn : n ≠ dotDot) (he : e ≠ []) :
    cleanStep rooted (n :: ns) e =
      if e = dot then n :: ns else if e = dotDot then ns else e :: n :: ns := by
  simp [cleanStep, hn, he]

/-- Names after a kept path are kept. -/
theorem foldl_cleanStep_plain {rooted : Bool} :
    ∀ (es : List GoString), (∀ e ∈ es, Plain e) → ∀ ks, Kept rooted ks →
      es.foldl (cleanStep rooted) ks = es.reverse ++ ks := by
  intro es
  induction es with
  | nil => exact fun _ _ _ => rfl
  | cons e es ih =>
      intro hes ks hks
      have he := (hes e List.mem_cons_self).kept hks
      rw [List.foldl_cons, cleanStep_of_kept he,
        ih (fun x hx => hes x (List.mem_cons_of_mem e hx)) _ he,
        List.reverse_cons, List.append_assoc, List.singleton_append]

/-- An element more is one step more of `Clean`. -/
theorem join_pair {s n : GoString} (hs : s ≠ []) (hn : slash ∉ n) :
    join [s, n] = render (isRooted s) (cleanStep (isRooted s)
      ((elements s).foldl (cleanStep (isRooted s)) []) n).reverse := by
  have hjoin : join [s, n] = clean (s ++ slash :: n) := by
    simp [join, hs, GoString.join]
  rw [hjoin, clean, isRooted_append _ hs, elements_append_slash _ hn,
    cleanElements, List.foldl_append]
  rfl

theorem join_render {rooted : Bool} {es : List GoString} (h : Kept rooted es)
    {n : GoString} (hn : Plain n) :
    join [render rooted es.reverse, n] = render rooted (n :: es).reverse := by
  have hjoin : join [render rooted es.reverse, n] =
      clean (render rooted es.reverse ++ slash :: n) := by
    simp [join, render_ne_nil h, GoString.join]
  rw [hjoin, clean_append_slash h hn.no_slash, cleanStep_of_kept (hn.kept h)]

private theorem ne_slash_of_mem_reverse {n : GoString} (hn : slash ∉ n) :
    ∀ b ∈ n.reverse, decide (b ≠ slash) = true := by
  intro b hb
  have hne : b ≠ slash := by
    rintro rfl
    exact hn (List.mem_reverse.mp hb)
  exact decide_eq_true hne

theorem upToLastSlash_append_slash (s : GoString) {n : GoString}
    (hn : slash ∉ n) : upToLastSlash (s ++ slash :: n) = s ++ [slash] := by
  rw [upToLastSlash, List.reverse_append, List.reverse_cons, List.append_assoc,
    List.dropWhile_append_of_pos (ne_slash_of_mem_reverse hn)]
  simp

theorem upToLastSlash_of_not_mem {n : GoString} (hn : slash ∉ n) :
    upToLastSlash n = [] := by
  rw [upToLastSlash, ← List.append_nil n.reverse,
    List.dropWhile_append_of_pos (ne_slash_of_mem_reverse hn)]
  rfl

/-- A text behind others. -/
theorem join_concat (n : GoString) :
    ∀ {es : List GoString}, es ≠ [] →
      GoString.join (es ++ [n]) [slash] =
        GoString.join es [slash] ++ slash :: n := by
  intro es
  induction es with
  | nil => exact fun h => absurd rfl h
  | cons e es ih =>
      intro _
      cases es with
      | nil => simp [GoString.join]
      | cons k ks =>
          have hks := ih (List.cons_ne_nil k ks)
          simp only [GoString.join, List.cons_append,
            List.intersperse_cons_cons, List.flatten_cons] at hks ⊢
          rw [hks]
          simp

/-- A clean path with a name behind it, up to the last slash. -/
private theorem upToLastSlash_render {rooted : Bool} {es : List GoString}
    {n : GoString} (hn : slash ∉ n) (hes : es ≠ []) :
    upToLastSlash (render rooted (n :: es).reverse) =
      render rooted es.reverse ++ [slash] := by
  have hne : es.reverse ≠ [] := fun h => hes (List.reverse_eq_nil_iff.mp h)
  have hrender : render rooted (n :: es).reverse =
      render rooted es.reverse ++ slash :: n := by
    rw [List.reverse_cons, render, render, join_concat n hne]
    cases rooted <;> simp [hne]
  rw [hrender, upToLastSlash_append_slash _ hn]

/-- **The directory of a file is the one its name was joined to.** -/
theorem dir_join {d n : GoString} (hd : clean d = d) (hn : Plain n) :
    dir (join [d, n]) = d := by
  obtain ⟨rooted, es, hes, rfl⟩ := exists_render hd
  rw [join_render hes hn, dir]
  by_cases hnil : es = []
  · subst hnil
    cases rooted with
    | true =>
        have hroot : render true [n].reverse = [] ++ slash :: n := by
          simp [render, GoString.join]
        rw [hroot, upToLastSlash_append_slash [] hn.no_slash]
        rfl
    | false =>
        have hname : render false [n].reverse = n := by
          simp [render, GoString.join]
        rw [hname, upToLastSlash_of_not_mem hn.no_slash]
        rfl
  · rw [upToLastSlash_render hn.no_slash hnil,
      clean_append_slash hes List.not_mem_nil]
    rfl

/-- **A file name and its directory are determined by the path.** -/
theorem join_inj {d d' n n' : GoString} (hd : clean d = d)
    (hd' : clean d' = d') (hn : Plain n) (hn' : Plain n') :
    join [d, n] = join [d', n'] ↔ d = d' ∧ n = n' := by
  refine ⟨fun h => ?_, fun h => by rw [h.1, h.2]⟩
  have hdir : d = d' := by
    rw [← dir_join hd hn, h, dir_join hd' hn']
  subst hdir
  obtain ⟨rooted, es, hes, rfl⟩ := exists_render hd
  rw [join_render hes hn, join_render hes hn'] at h
  have hfold := foldl_elements_render (hn.kept hes)
  rw [h, foldl_elements_render (hn'.kept hes)] at hfold
  exact ⟨rfl, (List.cons.inj hfold).1.symm⟩

example : join ["data", "certs", "a.example.org"] =
    lit "data/certs/a.example.org" := by decide

example : dir "data/certs/a/fullchain.pem" = lit "data/certs/a" := by decide

example : clean "/a/./b/../../../c//" = lit "/c" := by decide

end GoPath

end Hdns.Verified

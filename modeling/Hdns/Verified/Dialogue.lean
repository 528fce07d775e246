import Hdns.Verified.Procedure
import Mathlib.Computability.Language
import Mathlib.Order.CompletePartialOrder

/-!
# Dialogues

A dialogue is a procedure that asks for answers, which are the lines of a finite
input.  Past the end of the input every answer is the default one.  What a
dialogue does is then a language over answers: `Covers p c Q L` says that `p`
yields a result in `Q` exactly from the inputs that go on with a word of `L`,
provided that `c`.

The condition `c` is what has been found out about the answers before `p`.  It
is carried along so that a statement about a record need not be split among the
answers that the record is made of.

## Main results

* `covers_bind`, `covers_ite`, `covers_loop` — the rules, by the shape of the
  dialogue.
* `covers_sub` — results that are not in another set.
-/

namespace Hdns.Verified

open Computability

/-- The lines that are left, and how many answers have been taken. -/
structure Session (α : Type) where
  lines : List α
  asked : Nat
  deriving DecidableEq, Repr

namespace Session

variable {α : Type} [Inhabited α]

def start (lines : List α) : Session α := ⟨lines, 0⟩

/-- The next answer. -/
def next (s : Session α) : α := s.lines.headD default

def rest (s : Session α) : Session α := ⟨s.lines.tail, s.asked + 1⟩

/-- From `s` to `t` the answers are `d`. -/
def Reads (s : Session α) : List α → Session α → Prop
  | [], t => t = s
  | a :: d, t => a = s.next ∧ Reads s.rest d t

/-- The answers begin with a word of `L`. -/
def Begins (lines : List α) (L : Language α) : Prop :=
  ∃ d ∈ L, ∃ t, (start lines).Reads d t

variable {s t : Session α} {d e : List α}

theorem reads_append :
    s.Reads (d ++ e) t ↔ ∃ u, s.Reads d u ∧ u.Reads e t := by
  induction d generalizing s with
  | nil => simp [Reads]
  | cons a d ih => simp [Reads, ih, and_assoc]

theorem reads_singleton {a : α} : s.Reads [a] t ↔ a = s.next ∧ t = s.rest := by
  simp [Reads]

theorem Reads.asked_eq (h : s.Reads d t) : t.asked = s.asked + d.length := by
  induction d generalizing s with
  | nil =>
      obtain rfl := h
      rfl
  | cons a d ih =>
      have hrest := ih h.2
      simp only [rest] at hrest
      rw [hrest, List.length_cons]
      omega

/-- The answers between two states are determined. -/
theorem Reads.unique (h : s.Reads d t) (h' : s.Reads e t) : d = e := by
  have hlength : d.length = e.length := by
    have := h.asked_eq
    have := h'.asked_eq
    omega
  induction d generalizing s e with
  | nil => exact (List.length_eq_zero_iff.mp hlength.symm).symm
  | cons a d ih =>
      cases e with
      | nil => cases hlength
      | cons b e =>
          obtain ⟨rfl, h⟩ := h
          obtain ⟨rfl, h'⟩ := h'
          rw [ih h h' (by simpa using hlength)]

end Session

namespace Dialogue

open Procedure

variable {α β γ χ : Type} [Inhabited α]

/-- Take the next answer. -/
def ask : Procedure (Session α) α where
  run _ s := some (s.next, s.rest)
  mono _ _ _ _ _ h := h

@[simp] theorem yields_ask {s t : Session α} {a : α} :
    (ask : Procedure (Session α) α).Yields s a t ↔ a = s.next ∧ t = s.rest := by
  simp [Yields, ask, eq_comm]

/-- Given `c`, the dialogue yields a result in `Q` from the answers in `L`;
without `c` it yields none. -/
def Covers (p : Procedure (Session α) β) (c : Prop) (Q : β → Prop)
    (L : Language α) : Prop :=
  ∀ s t, (∃ b, p.Yields s b t ∧ Q b) ↔ c ∧ ∃ d ∈ L, s.Reads d t

section Rules

variable {p q : Procedure (Session α) β} {c c' : Prop} {Q Q' : β → Prop}
  {L M : Language α}

theorem covers_ask (P : α → Prop) :
    Covers ask True P {d | ∃ a, d = [a] ∧ P a} := by
  intro s t
  simp only [yields_ask, true_and]
  constructor
  · rintro ⟨_, ⟨rfl, rfl⟩, hP⟩
    exact ⟨_, ⟨_, rfl, hP⟩, Session.reads_singleton.mpr ⟨rfl, rfl⟩⟩
  · rintro ⟨_, ⟨a, rfl, hP⟩, hread⟩
    exact ⟨a, Session.reads_singleton.mp hread, hP⟩

theorem covers_pure {b : β} (h : c ↔ Q b) : Covers (pure b) c Q (1 : Language α) := by
  intro s t
  simp only [yields_pure, Language.mem_one, exists_eq_left, Session.Reads, h]
  constructor
  · rintro ⟨_, ⟨rfl, rfl⟩, hQ⟩
    exact ⟨hQ, rfl⟩
  · rintro ⟨hQ, rfl⟩
    exact ⟨b, ⟨rfl, rfl⟩, hQ⟩

/-- What never yields a result in `Q`. -/
theorem covers_none (h : ∀ s t b, p.Yields s b t → ¬Q b) : Covers p False Q L := by
  intro s t
  constructor
  · rintro ⟨b, hyields, hQ⟩
    exact absurd hQ (h s t b hyields)
  · rintro ⟨⟨⟩, -⟩

theorem covers_zero (h : ∀ s t b, p.Yields s b t → ¬Q b) :
    Covers p c Q (0 : Language α) := by
  intro s t
  constructor
  · rintro ⟨b, hyields, hQ⟩
    exact absurd hQ (h s t b hyields)
  · rintro ⟨-, d, hd, -⟩
    exact absurd hd (Language.notMem_zero d)

theorem Covers.congr (h : Covers p c Q L) (hc : c ↔ c')
    (hQ : ∀ s t b, p.Yields s b t → (Q b ↔ Q' b)) : Covers p c' Q' L := by
  intro s t
  rw [← hc, ← h s t]
  exact exists_congr fun b => and_congr_right fun hb => (hQ s t b hb).symm

theorem covers_bind {f : β → Procedure (Session α) γ} {P : β → Prop}
    {R : γ → Prop} (hp : Covers p True P L)
    (hf : ∀ b, Covers (f b) (c ∧ P b) R M) : Covers (p >>= f) c R (L * M) := by
  intro s t
  have hword : (∃ d ∈ L * M, s.Reads d t) ↔
      ∃ u, (∃ d ∈ L, s.Reads d u) ∧ ∃ e ∈ M, u.Reads e t := by
    constructor
    · rintro ⟨_, hmem, hread⟩
      obtain ⟨d, hd, e, he, rfl⟩ := Language.mem_mul.mp hmem
      obtain ⟨u, hread, hread'⟩ := Session.reads_append.mp hread
      exact ⟨u, ⟨d, hd, hread⟩, e, he, hread'⟩
    · rintro ⟨u, ⟨d, hd, hread⟩, e, he, hread'⟩
      exact ⟨d ++ e, Language.append_mem_mul hd he,
        Session.reads_append.mpr ⟨u, hread, hread'⟩⟩
  rw [hword]
  constructor
  · rintro ⟨r, hyields, hR⟩
    obtain ⟨b, u, hb, hr⟩ := yields_bind.mp hyields
    obtain ⟨⟨hc, hP⟩, hrest⟩ := (hf b u t).mp ⟨r, hr, hR⟩
    exact ⟨hc, u, ((hp s u).mp ⟨b, hb, hP⟩).2, hrest⟩
  · rintro ⟨hc, u, hfirst, hrest⟩
    obtain ⟨b, hb, hP⟩ := (hp s u).mpr ⟨trivial, hfirst⟩
    obtain ⟨r, hr, hR⟩ := (hf b u t).mpr ⟨⟨hc, hP⟩, hrest⟩
    exact ⟨r, yields_bind.mpr ⟨b, u, hb, hr⟩, hR⟩

/-- A dialogue that asks for nothing more. -/
theorem covers_bind_one {f : β → Procedure (Session α) γ} {P : β → Prop}
    {R : γ → Prop} (hp : Covers p True P L)
    (hf : ∀ b, Covers (f b) (c ∧ P b) R (1 : Language α)) :
    Covers (p >>= f) c R L := by
  have hbind := covers_bind hp hf
  rwa [mul_one] at hbind

/-- A dialogue that ends with what its result is made into. -/
theorem covers_map {f : β → γ} {P : β → Prop} {R : γ → Prop}
    (hp : Covers p True P L) (h : ∀ b, c ∧ P b ↔ R (f b)) :
    Covers (p >>= fun b => pure (f b)) c R L :=
  covers_bind_one hp fun b => covers_pure (h b)

/-- A dialogue that goes on by its first result. -/
theorem covers_bind_iSup {f : β → Procedure (Session α) γ} {R : γ → Prop}
    {K : β → Language α} {N : β → Language α}
    (hp : ∀ b, Covers p True (· = b) (K b))
    (hf : ∀ b, Covers (f b) c R (N b)) :
    Covers (p >>= f) c R (⨆ b, K b * N b) := by
  intro s t
  constructor
  · rintro ⟨r, hyields, hR⟩
    obtain ⟨b, u, hb, hr⟩ := yields_bind.mp hyields
    obtain ⟨-, d, hd, hread⟩ := (hp b s u).mp ⟨b, hb, rfl⟩
    obtain ⟨hc, e, he, hread'⟩ := (hf b u t).mp ⟨r, hr, hR⟩
    exact ⟨hc, d ++ e, Language.mem_iSup.mpr ⟨b, Language.append_mem_mul hd he⟩,
      Session.reads_append.mpr ⟨u, hread, hread'⟩⟩
  · rintro ⟨hc, _, hmem, hread⟩
    obtain ⟨b, hmem⟩ := Language.mem_iSup.mp hmem
    obtain ⟨d, hd, e, he, rfl⟩ := Language.mem_mul.mp hmem
    obtain ⟨u, hread, hread'⟩ := Session.reads_append.mp hread
    obtain ⟨_, hb, rfl⟩ := (hp b s u).mpr ⟨trivial, d, hd, hread⟩
    obtain ⟨r, hr, hR⟩ := (hf _ u t).mpr ⟨hc, e, he, hread'⟩
    exact ⟨r, yields_bind.mpr ⟨_, u, hb, hr⟩, hR⟩

theorem covers_ite {x : Prop} [Decidable x] (hp : Covers p c Q L)
    (hq : ∀ s t b, q.Yields s b t → ¬Q b) :
    Covers (if x then p else q) (c ∧ x) Q L := by
  by_cases hx : x
  · rw [if_pos hx]
    simpa only [hx, and_true] using hp
  · rw [if_neg hx]
    simpa only [hx, and_false] using covers_none hq

theorem covers_ite_not {x : Prop} [Decidable x]
    (hp : ∀ s t b, p.Yields s b t → ¬Q b) (hq : Covers q c Q L) :
    Covers (if x then p else q) (c ∧ ¬x) Q L := by
  by_cases hx : x
  · rw [if_pos hx]
    simpa only [hx, not_true, and_false] using covers_none hp
  · rw [if_neg hx]
    simpa only [hx, not_false_iff, and_true] using hq

/-- Results that are not in another set. -/
theorem covers_sub (hL : Covers p c Q L) (hM : Covers p True Q' M) :
    Covers p c (fun b => Q b ∧ ¬Q' b) (L - M) := by
  intro s t
  constructor
  · rintro ⟨b, hyields, hQ, hnot⟩
    obtain ⟨hc, d, hd, hread⟩ := (hL s t).mp ⟨b, hyields, hQ⟩
    refine ⟨hc, d, (Language.mem_sub L M d).mpr ⟨hd, fun hd' => ?_⟩, hread⟩
    obtain ⟨b', hyields', hQ'⟩ := (hM s t).mpr ⟨trivial, d, hd', hread⟩
    obtain ⟨rfl, -⟩ := hyields.unique hyields'
    exact hnot hQ'
  · rintro ⟨hc, d, hmem, hread⟩
    obtain ⟨hd, hnot⟩ := (Language.mem_sub L M d).mp hmem
    obtain ⟨b, hyields, hQ⟩ := (hL s t).mpr ⟨hc, d, hd, hread⟩
    refine ⟨b, hyields, hQ, fun hQ' => hnot ?_⟩
    obtain ⟨-, e, he, hread'⟩ := (hM s t).mp ⟨b, hyields, hQ'⟩
    rwa [hread.unique hread']

end Rules

omit [Inhabited α] in
/-- One more turn of a loop. -/
private theorem cons_mem {go stop : Language α} {d e : List α} (hd : d ∈ go)
    (he : e ∈ go∗ * stop) : d ++ e ∈ go∗ * stop := by
  obtain ⟨_, hmem, last, hlast, rfl⟩ := Language.mem_mul.mp he
  obtain ⟨turns, rfl, hturns⟩ := Language.mem_kstar.mp hmem
  rw [← List.append_assoc, ← List.flatten_cons]
  refine Language.append_mem_mul (Language.join_mem_kstar ?_) hlast
  exact List.forall_mem_cons.mpr ⟨hd, hturns⟩

/-- A loop: turns in `go`, each of which leaves a value in `I`, and a last one
in `stop`.  `J` holds of the values the loop comes to, good or not. -/
theorem covers_loop {body : χ → Procedure (Session α) (χ ⊕ β)} {I J : χ → Prop}
    {Q : β → Prop} {go stop : Language α}
    (hJ : ∀ x, J x → ∀ s y t, (body x).Yields s (.inl y) t → J y)
    (hgo : ∀ x, J x → Covers (body x) (I x) (Sum.elim I fun _ => False) go)
    (hstop : ∀ x, J x → Covers (body x) (I x) (Sum.elim (fun _ => False) Q) stop)
    {x : χ} (hx : J x) : Covers (loop body x) (I x) Q (go∗ * stop) := by
  intro s t
  constructor
  · rintro ⟨b, hyields, hQ⟩
    have hword : J x → I x ∧ ∃ d ∈ go∗ * stop, s.Reads d t := by
      refine yields_loop_rec (P := fun x s => J x →
        I x ∧ ∃ d ∈ go∗ * stop, s.Reads d t) ?_ ?_ hyields
      · intro x s hbody hx
        obtain ⟨hI, d, hd, hread⟩ := (hstop x hx s t).mp ⟨.inr b, hbody, hQ⟩
        have hmem := Language.append_mem_mul (Language.nil_mem_kstar go) hd
        exact ⟨hI, d, hmem, hread⟩
      · intro x s y u hbody ih hx
        obtain ⟨hI, e, he, hread'⟩ := ih (hJ x hx s y u hbody)
        obtain ⟨hI, d, hd, hread⟩ := (hgo x hx s u).mp ⟨.inl y, hbody, hI⟩
        refine ⟨hI, d ++ e, ?_, Session.reads_append.mpr ⟨u, hread, hread'⟩⟩
        exact cons_mem hd he
    exact hword hx
  · rintro ⟨hI, _, hmem, hread⟩
    obtain ⟨e, he, d, hd, rfl⟩ := Language.mem_mul.mp hmem
    obtain ⟨turns, rfl, hturns⟩ := Language.mem_kstar.mp he
    clear hmem he
    induction turns generalizing x s with
    | nil =>
        obtain ⟨r, hbody, hQ⟩ := (hstop x hx s t).mpr ⟨hI, d, hd, hread⟩
        cases r with
        | inl y => exact absurd hQ id
        | inr b => exact ⟨b, yields_loop.mpr (.inl hbody), hQ⟩
    | cons turn turns ih =>
        rw [List.flatten_cons, List.append_assoc] at hread
        obtain ⟨u, hfirst, hread⟩ := Session.reads_append.mp hread
        have hturn := hturns turn List.mem_cons_self
        obtain ⟨r, hbody, hI⟩ := (hgo x hx s u).mpr ⟨hI, turn, hturn, hfirst⟩
        cases r with
        | inl y =>
            have hrest : ∀ z ∈ turns, z ∈ go := fun z hz =>
              hturns z (List.mem_cons_of_mem turn hz)
            obtain ⟨b, hyields, hQ⟩ :=
              ih (hJ x hx s y u hbody) u hI hrest hread
            exact ⟨b, yields_loop.mpr (.inr ⟨y, u, hbody, hyields⟩), hQ⟩
        | inr b => exact absurd hI id

end Dialogue

end Hdns.Verified

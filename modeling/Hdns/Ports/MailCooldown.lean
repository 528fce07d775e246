import Hdns.Ports.Mail
import Mathlib.Data.List.Induction
import Mathlib.Algebra.Group.Int.Defs

/-!
# The spacing of the mails

`allowBySeverity` keeps the time of the last report it allowed for each
severity in one map, and a failure that is allowed erases the entry of the
successes.  What this means for the spacing of the mails is a matter of whole
histories: an entry can be missing although a success has been allowed.

## Main results

* `noted` — the entry of a severity, from the calls that have been answered.
* `spacing_of_mails` — which calls are allowed under one cooldown, and which are
  refused.
-/

namespace Hdns.Ports.MailCooldown

open Hdns.Verified.GoString
open Hdns.Ports.Schema
open Hdns.Ports.Service
open Hdns.Ports.Mail

/-! ## Histories -/

/-- A call of `allowBySeverity`: the clock as `time.Since` reads it, and as
`time.Now` reads it for the entry. -/
structure Call where
  severity : Severity
  since : Int
  now : Int
  deriving DecidableEq, Repr

/-- A call and its answer. -/
structure Answer extends Call where
  allowed : Bool
  deriving DecidableEq, Repr

/-- One more call. -/
def serve (minutes : Int) (st : List Answer × (Severity → Option Int))
    (c : Call) : List Answer × (Severity → Option Int) :=
  let r := allowBySeverity st.2 c.severity minutes c.since c.now
  (st.1 ++ [⟨c, r.1⟩], r.2)

/-- The calls with their answers, and what they leave in `lastSentAt`. -/
def history (minutes : Int) (calls : List Call) :
    List Answer × (Severity → Option Int) :=
  calls.foldl (serve minutes) ([], fun _ => none)

theorem history_snoc (minutes : Int) (calls : List Call) (c : Call) :
    history minutes (calls ++ [c]) = serve minutes (history minutes calls) c := by
  simp [history, List.foldl_append]

theorem history_calls (minutes : Int) (calls : List Call) :
    (history minutes calls).1.map (·.toCall) = calls := by
  induction calls using List.reverseRecOn with
  | nil => rfl
  | append_singleton calls c ih =>
      rw [history_snoc]
      simp [serve, ih]

/-- The readings of the clock never go back. -/
structure Timed (calls : List Call) : Prop where
  within : ∀ c ∈ calls, c.since ≤ c.now
  between : calls.Pairwise fun c c' => c.now ≤ c'.since

instance (calls : List Call) : Decidable (Timed calls) :=
  decidable_of_iff ((∀ c ∈ calls, c.since ≤ c.now) ∧
    calls.Pairwise fun c c' => c.now ≤ c'.since)
    ⟨fun h => ⟨h.1, h.2⟩, fun h => ⟨h.within, h.between⟩⟩

/-! ## The entries -/

/-- A call of the severity was allowed. -/
def Answer.Allowed (sev : Severity) (a : Answer) : Prop :=
  a.allowed = true ∧ a.severity = sev

instance (sev : Severity) (a : Answer) : Decidable (a.Allowed sev) :=
  inferInstanceAs (Decidable (_ ∧ _))

/-- A call of the severity was refused. -/
def Answer.Refused (sev : Severity) (a : Answer) : Prop :=
  a.allowed = false ∧ a.severity = sev

instance (sev : Severity) (a : Answer) : Decidable (a.Refused sev) :=
  inferInstanceAs (Decidable (_ ∧ _))

/-- The entry of a severity after one more answer. -/
def note (sev : Severity) (entry : Option Int) (a : Answer) : Option Int :=
  if a.Allowed sev then some a.now
  else if a.Allowed severityFailure ∧ sev = severitySuccess then none
  else entry

/-- The entry of a severity, from the answers. -/
def noted (sev : Severity) (as : List Answer) : Option Int :=
  as.foldl (note sev) none

theorem noted_snoc (sev : Severity) (as : List Answer) (a : Answer) :
    noted sev (as ++ [a]) = note sev (noted sev as) a := by
  simp [noted, List.foldl_append]

/-- The entry stands in the way of a call. -/
def blocks (minutes since : Int) (entry : Option Int) : Bool :=
  entry.any fun last => since - last < cooldown minutes

section Entries

variable {minutes : Int}

/-- One call, under a positive cooldown. -/
theorem allowBySeverity_eq (hminutes : 0 < minutes)
    (last : Severity → Option Int) (c : Call) :
    allowBySeverity last c.severity minutes c.since c.now =
      (!blocks minutes c.since (last c.severity), fun sev =>
        note sev (last sev)
          ⟨c, !blocks minutes c.since (last c.severity)⟩) := by
  have hsev : severityFailure ≠ severitySuccess := by decide
  have hpos : ¬minutes ≤ 0 := by omega
  unfold allowBySeverity
  rw [if_neg hpos]
  show (if blocks minutes c.since (last c.severity) = true then _ else _) = _
  by_cases hblocks : blocks minutes c.since (last c.severity) = true
  · rw [if_pos hblocks]
    simp [hblocks, note, Answer.Allowed]
  · rw [if_neg hblocks]
    rw [Bool.not_eq_true] at hblocks
    simp only [hblocks, Bool.not_false, Prod.mk.injEq, true_and]
    funext sev
    by_cases hfailure : c.severity = severityFailure
    · rw [if_pos hfailure, hfailure]
      by_cases hs : sev = severitySuccess
      · subst hs
        simp [note, Answer.Allowed, hfailure, hsev]
      · by_cases hf : sev = severityFailure
        · subst hf
          simp [note, Answer.Allowed, hfailure, hsev]
        · simp [note, Answer.Allowed, hfailure, hs, hf, Ne.symm hf]
    · rw [if_neg hfailure]
      by_cases hs : sev = c.severity
      · subst hs
        simp [note, Answer.Allowed]
      · simp [note, Answer.Allowed, hfailure, hs, Ne.symm hs]

/-- **The entries are those of the answers**, at every point of a history. -/
theorem history_noted (hminutes : 0 < minutes) (calls : List Call) :
    (history minutes calls).2 =
      fun sev => noted sev (history minutes calls).1 := by
  induction calls using List.reverseRecOn with
  | nil => rfl
  | append_singleton calls c ih =>
      rw [history_snoc]
      simp only [serve]
      rw [allowBySeverity_eq hminutes, ih]
      funext sev
      rw [noted_snoc]

/-- A call is answered by the entry of its severity. -/
theorem answer_eq (hminutes : 0 < minutes) (calls : List Call) :
    ∀ {before after : List Answer} {a : Answer},
      (history minutes calls).1 = before ++ a :: after →
        a.allowed = !blocks minutes a.since (noted a.severity before) := by
  induction calls using List.reverseRecOn with
  | nil =>
      intro before after a h
      simp [history] at h
  | append_singleton calls c ih =>
      intro before after a h
      rw [history_snoc] at h
      simp only [serve] at h
      rw [allowBySeverity_eq hminutes, history_noted hminutes] at h
      rcases List.eq_nil_or_concat after with rfl | ⟨after, last, rfl⟩
      · obtain ⟨hbefore, ha⟩ := List.append_inj' h rfl
        rw [← (List.cons.inj ha).1, ← hbefore]
      · rw [List.concat_eq_append, ← List.cons_append, ← List.append_assoc] at h
        exact ih (List.append_inj' h rfl).1

end Entries

/-! ## What the entries say -/

/-- An entry is the time of the last call allowed for the severity; for the
successes no failure has been allowed since. -/
theorem exists_of_noted {sev : Severity} {t : Int} (as : List Answer) :
    noted sev as = some t → ∃ before a after, as = before ++ a :: after ∧
      a.Allowed sev ∧ a.now = t ∧
        ∀ b ∈ after, sev = severitySuccess → ¬b.Allowed severityFailure := by
  induction as using List.reverseRecOn with
  | nil => intro h; cases h
  | append_singleton as a ih =>
      intro h
      rw [noted_snoc, note] at h
      split at h
      · next hallowed =>
        exact ⟨as, a, [], rfl, hallowed, Option.some.inj h, nofun⟩
      · split at h
        · cases h
        · next hkept =>
          obtain ⟨before, b, after, hsplit, hb, ht, hafter⟩ := ih h
          refine ⟨before, b, after ++ [a], by simp [hsplit], hb, ht, ?_⟩
          intro x hx hsev
          rcases List.mem_append.mp hx with hx | hx
          · exact hafter x hx hsev
          · rw [List.mem_singleton.mp hx]
            exact fun hfailure => hkept ⟨hfailure, hsev⟩

/-- Behind a call that was allowed there is an entry, at least as late, unless
a failure has erased it. -/
theorem noted_of_allowed {sev : Severity} {a : Answer} (before : List Answer)
    (ha : a.Allowed sev) (after : List Answer)
    (hlater : ∀ b ∈ after, a.now ≤ b.now)
    (hkept : ∀ b ∈ after, sev = severitySuccess →
      ¬b.Allowed severityFailure) :
    ∃ t, noted sev (before ++ a :: after) = some t ∧ a.now ≤ t := by
  induction after using List.reverseRecOn with
  | nil => exact ⟨a.now, by rw [noted_snoc, note, if_pos ha], le_rfl⟩
  | append_singleton after b ih =>
      rw [← List.cons_append, ← List.append_assoc, noted_snoc, note]
      have hb : b ∈ after ++ [b] := by simp
      split
      · exact ⟨b.now, rfl, hlater b hb⟩
      · rw [if_neg fun h => hkept b hb h.2 h.1]
        exact ih (fun x hx => hlater x (List.mem_append_left _ hx))
          fun x hx => hkept x (List.mem_append_left _ hx)

/-! ## The spacing -/

/-- **The spacing of the answers**, for the cooldown `c`. -/
structure Spaced (c : Int) (as : List Answer) : Prop where
  /-- Two failures that were allowed are `c` apart. -/
  failures : ∀ before a between b after,
    as = before ++ a :: (between ++ b :: after) →
      a.Allowed severityFailure → b.Allowed severityFailure →
        c ≤ b.since - a.now
  /-- Between two successes that were allowed and are less than `c` apart a
  failure was allowed. -/
  successes : ∀ before a between b after,
    as = before ++ a :: (between ++ b :: after) →
      a.Allowed severitySuccess → b.Allowed severitySuccess →
        b.since - a.now < c → ∃ x ∈ between, x.Allowed severityFailure
  /-- A failure that was refused follows one that was allowed less than `c`
  before. -/
  refusedFailure : ∀ before b after, as = before ++ b :: after →
    b.Refused severityFailure →
      ∃ a ∈ before, a.Allowed severityFailure ∧ b.since - a.now < c
  /-- A success that was refused follows one that was allowed less than `c`
  before, and no failure was allowed in between. -/
  refusedSuccess : ∀ before b after, as = before ++ b :: after →
    b.Refused severitySuccess →
      ∃ first a between, before = first ++ a :: between ∧
        a.Allowed severitySuccess ∧ b.since - a.now < c ∧
          ∀ x ∈ between, ¬x.Allowed severityFailure

section Spacing

variable {minutes : Int} {calls : List Call}

/-- Later calls note later times. -/
theorem now_le_of_timed (htimed : Timed calls) {before after : List Answer}
    {a : Answer} (hsplit : (history minutes calls).1 = before ++ a :: after) :
    ∀ b ∈ after, a.now ≤ b.now := by
  intro b hb
  have hcalls := history_calls minutes calls
  rw [hsplit, List.map_append, List.map_cons] at hcalls
  have hpairs := htimed.between
  rw [← hcalls, List.pairwise_append, List.pairwise_cons] at hpairs
  have hbetween : a.now ≤ b.since :=
    hpairs.2.1.1 b.toCall (List.mem_map_of_mem hb)
  have hwithin : b.since ≤ b.now := by
    refine htimed.within b.toCall ?_
    rw [← hcalls]
    exact List.mem_append_right _
      (List.mem_cons_of_mem _ (List.mem_map_of_mem hb))
  omega

/-- A call allowed behind another one of its severity is a cooldown later,
unless a failure has erased the entry. -/
theorem spaced_of_allowed (hminutes : 0 < minutes) (htimed : Timed calls)
    {sev : Severity} {before between after : List Answer} {a b : Answer}
    (hsplit : (history minutes calls).1 =
      before ++ a :: (between ++ b :: after))
    (ha : a.Allowed sev) (hb : b.Allowed sev)
    (hkept : ∀ x ∈ between, sev = severitySuccess →
      ¬x.Allowed severityFailure) :
    cooldown minutes ≤ b.since - a.now := by
  have hlater := now_le_of_timed htimed hsplit
  obtain ⟨t, ht, hle⟩ := noted_of_allowed before ha between
    (fun x hx => hlater x (List.mem_append_left _ hx)) hkept
  have hsplit' : (history minutes calls).1 =
      (before ++ a :: between) ++ b :: after := by
    simp [hsplit]
  have hanswer := answer_eq hminutes calls hsplit'
  rw [hb.1, hb.2, ht] at hanswer
  have hfree : ¬b.since - t < cooldown minutes := by
    simpa [blocks] using hanswer
  omega

/-- What a refused call follows. -/
theorem refused_of_noted (hminutes : 0 < minutes) {sev : Severity}
    {before after : List Answer} {b : Answer}
    (hsplit : (history minutes calls).1 = before ++ b :: after)
    (hb : b.Refused sev) :
    ∃ first a between, before = first ++ a :: between ∧ a.Allowed sev ∧
      b.since - a.now < cooldown minutes ∧
        ∀ x ∈ between, sev = severitySuccess → ¬x.Allowed severityFailure := by
  have hanswer := answer_eq hminutes calls hsplit
  rw [hb.1, hb.2] at hanswer
  have hblocks : blocks minutes b.since (noted sev before) = true := by
    simpa using hanswer
  obtain ⟨t, ht, hlt⟩ := (Option.any_eq_true _ _).mp hblocks
  obtain ⟨first, a, between, hbefore, ha, rfl, hkept⟩ := exists_of_noted _ ht
  exact ⟨first, a, between, hbefore, ha, of_decide_eq_true hlt, hkept⟩

end Spacing

/-- **The spacing of the mails.**  Under one positive cooldown that does not
overflow, and with a clock that never goes back. -/
theorem spacing_of_mails (minutes : Int) (hminutes : 0 < minutes)
    (hfits : minutes * 60000000000 < 2 ^ 63) (calls : List Call)
    (htimed : Timed calls) :
    Spaced (minutes * 60000000000) (history minutes calls).1 := by
  have hcooldown : minutes * 60000000000 = cooldown minutes := by
    unfold cooldown
    rw [Int.bmod_def]
    omega
  have hsev : severityFailure ≠ severitySuccess := by decide
  rw [hcooldown]
  constructor
  · intro before a between b after hsplit ha hb
    exact spaced_of_allowed hminutes htimed hsplit ha hb
      fun x _ h => absurd h hsev
  · intro before a between b after hsplit ha hb hnear
    by_contra hnone
    have hfar := spaced_of_allowed hminutes htimed hsplit ha hb
      fun x hx _ hfailure => hnone ⟨x, hx, hfailure⟩
    omega
  · intro before b after hsplit hb
    obtain ⟨first, a, between, rfl, ha, hnear, -⟩ :=
      refused_of_noted hminutes hsplit hb
    exact ⟨a, by simp, ha, hnear⟩
  · intro before b after hsplit hb
    obtain ⟨first, a, between, rfl, ha, hnear, hkept⟩ :=
      refused_of_noted hminutes hsplit hb
    exact ⟨first, a, between, rfl, ha, hnear, fun x hx => hkept x hx rfl⟩

/-- Minutes, in nanoseconds. -/
private def minute (n : Int) : Int := n * 60000000000

/-- A success, a failure ten minutes later, a success after that, and two that
are refused. -/
private def mixed : List Call :=
  [⟨severitySuccess, minute 0, minute 0⟩,
    ⟨severityFailure, minute 10, minute 10⟩,
    ⟨severitySuccess, minute 20, minute 20⟩,
    ⟨severityFailure, minute 30, minute 30⟩,
    ⟨severitySuccess, minute 40, minute 40⟩]

theorem spacing_of_mails_mixed :
    (history 60 mixed).1.map (·.allowed) = [true, true, true, false, false] ∧
      Spaced (60 * 60000000000) (history 60 mixed).1 :=
  ⟨by decide, spacing_of_mails 60 (by decide) (by decide) mixed (by decide)⟩

end Hdns.Ports.MailCooldown

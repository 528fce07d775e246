import Hdns.Ports.Schema
import Hdns.Verified.Selection
import Mathlib.Data.List.Induction

/-!
# The consensus of the resolvers

`resolveWithConsensus` asks the configured resolvers one after the other, counts
the addresses they answer, and picks the one with the most answers.  What a
resolver does is its outcome, an address or an error; that the trust thresholds
are missed is only logged, so neither they nor the logs are part of the model.

`counts` and `firstSeen` are Go maps, and `pickConsensusCandidate` ranges over
the first in an order the language leaves open.

## Main results

* `Winner` — the most frequent address, the earliest one of those.
* `resolveWithConsensus_winner` — the address returned, in every order.
-/

namespace Hdns.Ports.Consensus

open Hdns.Verified
open Hdns.Verified.GoString
open Hdns.Ports.Schema

/-! ## The functions -/

/-- What `resolveEntry` returned for a resolver. -/
abbrev Outcome := Except GoError GoString

/-- The variables of the loop of `resolveWithConsensus`. -/
structure Tally where
  counts : GoMap GoString Nat
  firstSeen : GoMap GoString Nat
  successful : Nat

def Tally.start : Tally := ⟨∅, ∅, 0⟩

/-- The body of the loop for a resolver that has answered. -/
def Tally.answer (t : Tally) (addr : GoString) : Tally where
  firstSeen :=
    if addr ∈ t.firstSeen then t.firstSeen
    else t.firstSeen.insert addr t.successful
  counts := t.counts.insert addr (t.counts.index 0 addr + 1)
  successful := t.successful + 1

/-- The loop of `resolveWithConsensus`. -/
def tally (outcomes : List Outcome) : Tally :=
  outcomes.foldl (fun t outcome =>
    match outcome with
    | .ok addr => t.answer addr
    | .error _ => t) Tally.start

/-- `bestAddr`, `bestCount` and `bestFirstSeen`. -/
structure Candidate where
  addr : GoString
  count : Int
  firstSeen : Nat
  deriving DecidableEq, Repr

/-- The body of the loop of `pickConsensusCandidate`. -/
def pickStep (counts firstSeen : GoMap GoString Nat) (best : Candidate)
    (addr : GoString) : Candidate :=
  let count : Int := counts.index 0 addr
  if count > best.count then ⟨addr, count, firstSeen.index 0 addr⟩
  else if count = best.count ∧ firstSeen.index 0 addr < best.firstSeen then
    { best with addr := addr, firstSeen := firstSeen.index 0 addr }
  else best

/-- `pickConsensusCandidate`, ranging over `counts` in the given order. -/
def pickConsensusCandidate (counts firstSeen : GoMap GoString Nat)
    (order : List GoString) : GoString × Int :=
  let best := order.foldl (pickStep counts firstSeen) ⟨[], -1, 0⟩
  (best.addr, best.count)

/-- `resolveWithConsensus`, from the outcomes in configuration order. -/
def resolveWithConsensus (family : GoString) (outcomes : List Outcome)
    (order : List GoString) : Except GoError GoString :=
  if outcomes = [] then
    .error (.newError (lit "no " ++ family ++ lit " resolvers configured"))
  else
    let t := tally outcomes
    if t.successful = 0 then
      .error (.newError (lit "failed to resolve " ++ family ++
        lit " address using all configured resolvers"))
    else .ok (pickConsensusCandidate t.counts t.firstSeen order).1

/-! ## What is counted -/

/-- The addresses that were answered, in order. -/
def answers (outcomes : List Outcome) : List GoString :=
  outcomes.filterMap Except.toOption

theorem tally_eq (outcomes : List Outcome) :
    tally outcomes = (answers outcomes).foldl Tally.answer Tally.start := by
  unfold tally answers
  rw [List.foldl_filterMap]
  refine List.foldl_ext _ _ _ fun t outcome _ => ?_
  cases outcome with
  | error err => rfl
  | ok addr => rfl

/-- What the loop has counted after some answers. -/
structure Counted (as : List GoString) (t : Tally) : Prop where
  successful : t.successful = as.length
  keys : ∀ a, a ∈ t.counts.keys ↔ a ∈ as
  counts : ∀ a, t.counts.index 0 a = as.count a
  seen : ∀ a, a ∈ t.firstSeen ↔ a ∈ as
  firstSeen : ∀ a ∈ as, t.firstSeen.index 0 a = as.idxOf a

theorem counted_answer {as : List GoString} {t : Tally} (h : Counted as t)
    (addr : GoString) : Counted (as ++ [addr]) (t.answer addr) where
  successful := by
    rw [List.length_append, ← h.successful]
    rfl
  keys a := by
    have hinsert : a ∈ (t.answer addr).counts.keys ↔
        a = addr ∨ a ∈ t.counts.keys := AList.mem_insert t.counts
    rw [hinsert, h.keys, List.mem_append, List.mem_singleton, or_comm]
  counts a := by
    show GoMap.index (t.counts.insert addr (t.counts.index 0 addr + 1)) 0 a = _
    rw [GoMap.index_insert, h.counts, h.counts, List.count_append]
    by_cases ha : a = addr
    · subst ha
      simp
    · simp [ha, Ne.symm ha]
  seen a := by
    show (a ∈ if addr ∈ t.firstSeen then t.firstSeen
      else t.firstSeen.insert addr t.successful) ↔ _
    rw [List.mem_append, List.mem_singleton]
    split
    · next hseen =>
      rw [h.seen]
      refine ⟨.inl, fun ha => ?_⟩
      rcases ha with ha | rfl
      · exact ha
      · exact (h.seen _).mp hseen
    · rw [AList.mem_insert, h.seen, or_comm]
  firstSeen a ha := by
    show GoMap.index (if addr ∈ t.firstSeen then t.firstSeen
      else t.firstSeen.insert addr t.successful) 0 a = _
    by_cases hmem : a ∈ as
    · rw [List.idxOf_append_of_mem hmem, ← h.firstSeen a hmem]
      split
      · rfl
      · next hseen =>
        have hne : a ≠ addr := by
          rintro rfl
          exact hseen ((h.seen a).mpr hmem)
        rw [GoMap.index_insert, if_neg hne]
    · -- the first answer of this address is the last one so far
      obtain rfl : a = addr := by
        rcases List.mem_append.mp ha with ha | ha
        · exact absurd ha hmem
        · exact List.mem_singleton.mp ha
      rw [if_neg fun hseen => hmem ((h.seen a).mp hseen), GoMap.index_insert,
        if_pos rfl, List.idxOf_append_of_notMem hmem, h.successful]
      simp

theorem counted_tally (outcomes : List Outcome) :
    Counted (answers outcomes) (tally outcomes) := by
  rw [tally_eq]
  induction answers outcomes using List.reverseRecOn with
  | nil => exact ⟨rfl, fun a => by rfl, fun a => by rfl, fun a => by rfl, nofun⟩
  | append_singleton as addr ih =>
      rw [List.foldl_append]
      exact counted_answer ih addr

/-! ## What is picked -/

/-- More answers, or as many and earlier ones. -/
def better (c best : Candidate) : Prop :=
  best.count < c.count ∨
    c.count = best.count ∧ c.firstSeen < best.firstSeen

instance : DecidableRel better := fun c best =>
  inferInstanceAs (Decidable (best.count < c.count ∨
    c.count = best.count ∧ c.firstSeen < best.firstSeen))

theorem better_trans (c₁ c₂ c₃ : Candidate) (h : better c₁ c₂)
    (h' : better c₂ c₃) : better c₁ c₃ := by
  unfold better at *
  omega

theorem better_irrefl (c : Candidate) : ¬better c c := by
  unfold better
  omega

/-- The entry of an address. -/
def entry (t : Tally) (addr : GoString) : Candidate :=
  ⟨addr, t.counts.index 0 addr, t.firstSeen.index 0 addr⟩

theorem pickConsensusCandidate_eq (t : Tally) (order : List GoString) :
    (pickConsensusCandidate t.counts t.firstSeen order).1 =
      (select better ⟨[], -1, 0⟩ (order.map (entry t))).addr := by
  have hstep : pickStep t.counts t.firstSeen = fun best addr =>
      if better (entry t addr) best then entry t addr else best := by
    funext best addr
    unfold pickStep better entry
    grind
  unfold pickConsensusCandidate select
  rw [hstep, List.foldl_map]

/-- The address that was answered most often; of several ones, the one that was
answered first. -/
def Winner (as : List GoString) (a : GoString) : Prop :=
  a ∈ as ∧ ∀ b ∈ as, as.count b < as.count a ∨
    as.count b = as.count a ∧ as.idxOf a ≤ as.idxOf b

theorem winner_unique {as : List GoString} {a b : GoString}
    (ha : Winner as a) (hb : Winner as b) : a = b := by
  have hab := ha.2 b hb.1
  have hba := hb.2 a ha.1
  have hidx : as.idxOf a = as.idxOf b := by omega
  exact (List.idxOf_inj ha.1).mp hidx

/-- **What `pickConsensusCandidate` picks**, in whatever order it ranges. -/
theorem pick_winner {as : List GoString} {t : Tally} (h : Counted as t)
    (hne : as ≠ []) {order : List GoString} (horder : t.counts.Ranges order) :
    Winner as (pickConsensusCandidate t.counts t.firstSeen order).1 := by
  rw [pickConsensusCandidate_eq]
  have hmem : ∀ {a}, a ∈ order ↔ a ∈ as := horder.mem.trans (h.keys _)
  obtain ⟨first, hfirst⟩ := List.exists_mem_of_ne_nil as hne
  have hstart : better (entry t first) ⟨[], -1, 0⟩ := by
    unfold better entry
    exact .inl (by simp only; omega)
  have hpicked := select_mem better_trans better_irrefl
    (List.mem_map_of_mem (f := entry t) (hmem.mpr hfirst)) hstart
  have hnone := (select_spec better_trans better_irrefl
    (order.map (entry t)) ⟨[], -1, 0⟩).2
  obtain ⟨a, ha, hpick⟩ := List.mem_map.mp hpicked
  rw [← hpick] at hnone ⊢
  show Winner as a
  refine ⟨hmem.mp ha, fun b hb => ?_⟩
  have hb' := hnone _ (List.mem_map_of_mem (hmem.mpr hb))
  unfold better entry at hb'
  simp only [h.counts, h.firstSeen a (hmem.mp ha), h.firstSeen b hb] at hb'
  omega

/-- What `resolveWithConsensus` returns, by what was answered. -/
theorem resolveWithConsensus_cases (family : GoString)
    {outcomes : List Outcome} {order : List GoString}
    (horder : (tally outcomes).counts.Ranges order) :
    (answers outcomes = [] ∧
      ∃ err, resolveWithConsensus family outcomes order = .error err) ∨
    ∃ addr, Winner (answers outcomes) addr ∧
      resolveWithConsensus family outcomes order = .ok addr := by
  have hcounted := counted_tally outcomes
  unfold resolveWithConsensus
  by_cases hnone : answers outcomes = []
  · refine .inl ⟨hnone, ?_⟩
    have hzero : (tally outcomes).successful = 0 := by
      rw [hcounted.successful, hnone]
      rfl
    by_cases houtcomes : outcomes = []
    · exact ⟨_, if_pos houtcomes⟩
    · rw [if_neg houtcomes]
      exact ⟨_, if_pos hzero⟩
  · refine .inr ⟨_, pick_winner hcounted hnone horder, ?_⟩
    have houtcomes : outcomes ≠ [] := by
      rintro rfl
      exact hnone rfl
    have hsome : (tally outcomes).successful ≠ 0 := by
      rw [hcounted.successful]
      exact fun h => hnone (List.length_eq_zero_iff.mp h)
    rw [if_neg houtcomes]
    exact if_neg hsome

theorem answers_eq_nil_iff (outcomes : List Outcome) :
    answers outcomes = [] ↔ ∀ addr, .ok addr ∉ outcomes := by
  unfold answers
  rw [List.filterMap_eq_nil_iff]
  constructor
  · intro h addr haddr
    exact Option.some_ne_none addr (h _ haddr)
  · intro h outcome houtcome
    cases outcome with
    | error err => rfl
    | ok addr => exact absurd houtcome (h addr)

/-- **The answer of the resolvers.**  For every list of outcomes and every
order in which the map is ranged over: there is an error exactly when no
resolver has answered; else the most frequent address is returned, and of those
the one answered first.  It is the same for any other list with the same
answers, wherever the failing resolvers stand, and any other order. -/
theorem resolveWithConsensus_winner (family : GoString)
    (outcomes : List Outcome) (order : List GoString)
    (horder : (tally outcomes).counts.Ranges order) :
    ((∃ err, resolveWithConsensus family outcomes order = .error err) ↔
      ∀ addr, .ok addr ∉ outcomes) ∧
    (∀ addr, resolveWithConsensus family outcomes order = .ok addr →
      Winner (answers outcomes) addr) ∧
    ∀ outcomes' order', (tally outcomes').counts.Ranges order' →
      answers outcomes' = answers outcomes →
      (resolveWithConsensus family outcomes' order').toOption =
        (resolveWithConsensus family outcomes order).toOption := by
  rw [← answers_eq_nil_iff]
  rcases resolveWithConsensus_cases family horder with
    ⟨hnone, err, hr⟩ | ⟨addr, hwinner, hr⟩
  · refine ⟨⟨fun _ => hnone, fun _ => ⟨err, hr⟩⟩, fun addr h => ?_,
      fun outcomes' order' horder' hsame => ?_⟩
    · rw [hr] at h
      cases h
    · rcases resolveWithConsensus_cases family horder' with
        ⟨-, err', hr'⟩ | ⟨addr', hwinner', -⟩
      · rw [hr, hr']
        rfl
      · rw [hsame, hnone] at hwinner'
        cases hwinner'.1
  · refine ⟨⟨fun ⟨err, h⟩ => ?_, fun hnone => ?_⟩, fun addr' h => ?_,
      fun outcomes' order' horder' hsame => ?_⟩
    · rw [hr] at h
      cases h
    · rw [hnone] at hwinner
      cases hwinner.1
    · obtain rfl := Except.ok.inj (hr.symm.trans h)
      exact hwinner
    · rcases resolveWithConsensus_cases family horder' with
        ⟨hnone', -, -⟩ | ⟨addr', hwinner', hr'⟩
      · rw [← hsame, hnone'] at hwinner
        cases hwinner.1
      · rw [hsame] at hwinner'
        rw [hr, hr', winner_unique hwinner hwinner']

/-! ### Two addresses answered twice -/

private def split : List Outcome :=
  [.ok "b", .error .api, .ok "a", .ok "a", .ok "c", .ok "b"]

theorem resolveWithConsensus_winner_split :
    resolveWithConsensus "ipv4" split ["c", "a", "b"] = .ok "b" ∧
      Winner (answers split) "b" := by
  have horder : (tally split).counts.Ranges ["c", "a", "b"] := by
    unfold GoMap.Ranges
    decide +kernel
  refine ⟨by decide +kernel, ?_⟩
  exact (resolveWithConsensus_winner "ipv4" split ["c", "a", "b"] horder).2.1
    "b" (by decide +kernel)

end Hdns.Ports.Consensus

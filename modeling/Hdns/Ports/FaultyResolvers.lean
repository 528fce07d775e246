import Hdns.Ports.Resolvers
import Hdns.Ports.SteadyAddress

/-!
# Resolvers that answer wrongly

The public address is what most of the configured resolvers answer.  A resolver
may fail, or be wrong or hostile and answer any address that is accepted; how
many of them that are may answer as they like without any effect is settled here
for one family, and then for the runs of the program.

## Main results

* `honest_resolvers_decide_iff` — for which configurations the honest resolvers
  decide, whatever the others answer.
* `faulty_minority_is_harmless` — passes in which most resolvers answer one
  address write nothing else, and each record set once.
-/

namespace Hdns.Ports.FaultyResolvers

open Hdns.Verified
open Hdns.Verified.GoString
open Hdns.Ports.Schema
open Hdns.Ports.Consensus
open Hdns.Ports.Resolvers
open Hdns.Ports.Operations
open Hdns.Ports.SteadyAddress

/-! ## One family -/

/-- What a resolver may do: an honest one answers the address, another one fails
or answers any address that is accepted. -/
def Behaves (wantIPv6 : Bool) (addr : GoString) (honest : Bool)
    (outcome : Outcome) : Prop :=
  if honest then outcome = .ok addr
  else ∀ other, outcome = .ok other → accepted wantIPv6 other = true

/-- The outcomes of resolvers, of which the marked ones are honest. -/
def Outcomes (wantIPv6 : Bool) (addr : GoString) (honest : List Bool)
    (outcomes : List Outcome) : Prop :=
  List.Forall₂ (Behaves wantIPv6 addr) honest outcomes

/-- More are honest than not; or as many, and the first one is. -/
def Decisive (honest : List Bool) : Prop :=
  honest.count false < honest.count true ∨
    honest.count false = honest.count true ∧ honest.head? = some true

section Family

variable {wantIPv6 : Bool} {addr : GoString}

theorem answers_ok (answered : GoString) (outcomes : List Outcome) :
    answers (.ok answered :: outcomes) = answered :: answers outcomes := rfl

theorem answers_error (err : GoError) (outcomes : List Outcome) :
    answers (.error err :: outcomes) = answers outcomes := rfl

/-- The honest resolvers are counted for the address, and no other address is
counted more often than there are others. -/
theorem Outcomes.counts {honest : List Bool} {outcomes : List Outcome}
    (h : Outcomes wantIPv6 addr honest outcomes) :
    honest.count true ≤ (answers outcomes).count addr ∧
      ∀ other, other ≠ addr →
        (answers outcomes).count other ≤ honest.count false := by
  unfold Outcomes at h
  induction h with
  | nil => simp [answers]
  | @cons b outcome honest outcomes hb _ ih =>
      obtain ⟨htrue, hother⟩ := ih
      cases b with
      | true =>
          have hok : outcome = .ok addr := hb
          subst hok
          constructor
          · simpa [answers_ok] using htrue
          · intro other hne
            have hrest := hother other hne
            simpa [answers_ok, List.count_cons, Ne.symm hne] using hrest
      | false =>
          cases outcome with
          | error err =>
              constructor
              · simpa [answers_error] using htrue
              · intro other hne
                have hrest := hother other hne
                simp only [answers_error, List.count_cons_self]
                omega
          | ok answered =>
              constructor
              · simp only [answers_ok, List.count_cons, Bool.false_beq,
                  Bool.not_true, Bool.false_eq_true, if_false]
                omega
              · intro other hne
                have hrest := hother other hne
                rw [answers_ok, List.count_cons, List.count_cons_self]
                split <;> omega

/-- If the first resolver is honest, its address is the first one answered. -/
theorem Outcomes.first {honest : List Bool} {outcomes : List Outcome}
    (h : Outcomes wantIPv6 addr honest outcomes)
    (hfirst : honest.head? = some true) : (answers outcomes).idxOf addr = 0 := by
  cases h with
  | nil => simp at hfirst
  | cons hb _ =>
      obtain rfl : _ = true := Option.some.inj hfirst
      obtain rfl : _ = Except.ok addr := hb
      simp [answers_ok]

/-- **The honest resolvers decide.** -/
theorem Outcomes.winner {honest : List Bool} {outcomes : List Outcome}
    (h : Outcomes wantIPv6 addr honest outcomes) (hdecisive : Decisive honest) :
    Winner (answers outcomes) addr := by
  obtain ⟨htrue, hother⟩ := h.counts
  constructor
  · apply List.count_pos_iff.mp
    rcases hdecisive with hmore | ⟨hsame, hfirst⟩
    · omega
    · have hhead : 0 < honest.count true :=
        List.count_pos_iff.mpr (List.mem_of_mem_head? hfirst)
      omega
  · intro other _
    by_cases hne : other = addr
    · rw [hne]
      exact .inr ⟨rfl, Nat.le_refl _⟩
    have hless := hother other hne
    rcases hdecisive with hmore | ⟨hsame, hfirst⟩
    · exact .inl (by omega)
    · rw [h.first hfirst]
      omega

/-- Everybody else answers one other address. -/
def conspiracy (addr other : GoString) (honest : List Bool) : List Outcome :=
  honest.map fun b => if b then .ok addr else .ok other

theorem outcomes_conspiracy {other : GoString}
    (hother : accepted wantIPv6 other = true) (honest : List Bool) :
    Outcomes wantIPv6 addr honest (conspiracy addr other honest) := by
  unfold Outcomes conspiracy
  induction honest with
  | nil => exact .nil
  | cons b honest ih =>
      apply List.Forall₂.cons _ ih
      cases b with
      | true => rfl
      | false =>
          intro answered hanswered
          have hsame : other = answered := Except.ok.inj hanswered
          rw [← hsame]
          exact hother

theorem answers_conspiracy (other : GoString) (honest : List Bool) :
    answers (conspiracy addr other honest) =
      honest.map fun b => if b then addr else other := by
  unfold conspiracy
  induction honest with
  | nil => rfl
  | cons b honest ih =>
      cases b with
      | true => simp [answers_ok, ih]
      | false => simp [answers_ok, ih]

theorem count_conspiracy {other : GoString} (hne : other ≠ addr)
    (honest : List Bool) :
    (answers (conspiracy addr other honest)).count addr = honest.count true ∧
      (answers (conspiracy addr other honest)).count other =
        honest.count false := by
  rw [answers_conspiracy]
  induction honest with
  | nil => simp
  | cons b honest ih =>
      cases b with
      | true => simp [ih, Ne.symm hne]
      | false => simp [ih, hne]

/-- Without decisive resolvers the others can win, or nobody answers. -/
theorem conspiracy_wins {other : GoString} (hne : other ≠ addr)
    {honest : List Bool} (hnot : ¬Decisive honest) :
    ¬Winner (answers (conspiracy addr other honest)) addr := by
  intro hwinner
  obtain ⟨htrue, hfalse⟩ := count_conspiracy hne honest
  unfold Decisive at hnot
  rw [not_or, Nat.not_lt] at hnot
  obtain ⟨hmany, hfirst⟩ := hnot
  cases honest with
  | nil => cases hwinner.1
  | cons b honest =>
      cases b with
      | true =>
          -- the address is the first one, so that the others are more
          have hmore : (true :: honest).count false ≠
              (true :: honest).count true := fun h => hfirst ⟨h, rfl⟩
          have hanswered : other ∈ answers
              (conspiracy addr other (true :: honest)) := by
            apply List.count_pos_iff.mp
            omega
          have hbest := hwinner.2 other hanswered
          omega
      | false =>
          -- the other address is the first one, and no less frequent
          have hanswered : answers (conspiracy addr other (false :: honest)) =
              other :: answers (conspiracy addr other honest) := by
            simp [answers_conspiracy]
          have hbest := hwinner.2 other (by rw [hanswered]; simp)
          rw [htrue, hfalse, hanswered, List.idxOf_cons_self,
            List.idxOf_cons_ne _ hne] at hbest
          omega

/-- Another address is accepted, whatever the address is. -/
theorem exists_accepted_ne (wantIPv6 : Bool) (addr : GoString) :
    ∃ other, other ≠ addr ∧ accepted wantIPv6 other = true := by
  have hpair : ∃ a b, a ≠ b ∧ accepted wantIPv6 a = true ∧
      accepted wantIPv6 b = true := by
    cases wantIPv6 with
    | false => exact ⟨"198.41.0.4", "192.33.4.12", by decide +kernel⟩
    | true => exact ⟨"2001:503:ba3e::2:30", "2001:500:2::c", by decide +kernel⟩
  obtain ⟨a, b, hab, ha, hb⟩ := hpair
  by_cases h : a = addr
  · exact ⟨b, h ▸ Ne.symm hab, hb⟩
  · exact ⟨a, h, ha⟩

end Family

/-- **Which resolvers decide.**  The honest resolvers of a configuration decide
what `resolveWithConsensus` returns, whatever the others answer and in whatever
order the map is ranged over, exactly if they are more than the others, or as
many and one of them is configured first. -/
theorem honest_resolvers_decide_iff (wantIPv6 : Bool) (family addr : GoString)
    (honest : List Bool) :
    (∀ outcomes order, (tally outcomes).counts.Ranges order →
      Outcomes wantIPv6 addr honest outcomes →
        resolveWithConsensus family outcomes order = .ok addr) ↔
      Decisive honest := by
  constructor
  · intro hall
    by_contra hnot
    obtain ⟨other, hne, hother⟩ := exists_accepted_ne wantIPv6 addr
    have hresolved := hall (conspiracy addr other honest) _ (List.Perm.refl _)
      (outcomes_conspiracy hother honest)
    apply conspiracy_wins hne hnot
    rcases resolveWithConsensus_cases family (List.Perm.refl _) with
      ⟨-, err, herr⟩ | ⟨winner, hwinner, hok⟩
    · rw [herr] at hresolved
      cases hresolved
    · have hsame : winner = addr := Except.ok.inj (hok.symm.trans hresolved)
      rw [hsame] at hwinner
      exact hwinner
  · intro hdecisive outcomes order horder houtcomes
    rcases resolveWithConsensus_cases family horder with
      ⟨hnone, -, -⟩ | ⟨winner, hwinner, hok⟩
    · have hwins := houtcomes.winner hdecisive
      rw [hnone] at hwins
      cases hwins.1
    · rw [hok, winner_unique hwinner (houtcomes.winner hdecisive)]

/-! ## Runs -/

/-- The pair of results that `resolve` looks at. -/
def returned : Except GoError GoString → GoString × Option GoError
  | .ok addr => (addr, none)
  | .error err => ([], some err)

/-- The resolver answers the address. -/
def answersWith (net : Network) (ip entry : GoString) : Bool :=
  (resolveEntry net entry false).toOption == some ip

theorem outcomes_of_net (net : Network) (ip : GoString)
    (resolvers : List GoString) :
    Outcomes false ip (resolvers.map (answersWith net ip))
      (resolvers.map (resolveEntry net · false)) := by
  unfold Outcomes
  rw [List.forall₂_map_left_iff, List.forall₂_map_right_iff,
    List.forall₂_same]
  intro entry _
  cases hentry : resolveEntry net entry false with
  | error err =>
      simp only [answersWith, hentry, Behaves]
      simp [Except.toOption]
  | ok answered =>
      have haccepted := resolveEntry_accepted hentry
      by_cases hsame : answered = ip
      · simp [answersWith, hentry, Behaves, Except.toOption, hsame]
      · simp [answersWith, hentry, Behaves, Except.toOption, hsame, haccepted]

/-- The pass asks some resolvers for the IPv4 address; those that answer this
one decide. -/
def Agreed (ip : GoString) (env : Env) : Prop :=
  ∃ (net : Network) (resolvers order : List GoString),
    Decisive (resolvers.map (answersWith net ip)) ∧
    (tally (resolvers.map (resolveEntry net · false))).counts.Ranges order ∧
    env.consensus4 = returned (resolveWithConsensus "ipv4"
      (resolvers.map (resolveEntry net · false)) order)

theorem Agreed.consensus {ip : GoString} {env : Env} (h : Agreed ip env) :
    env.consensus4.1 = ip := by
  obtain ⟨net, resolvers, order, hdecisive, horder, henv⟩ := h
  have hwins := (outcomes_of_net net ip resolvers).winner hdecisive
  rcases resolveWithConsensus_cases "ipv4" horder with
    ⟨hnone, -, -⟩ | ⟨winner, hwinner, hok⟩
  · rw [hnone] at hwins
    cases hwins.1
  · rw [henv, hok]
    exact winner_unique hwinner hwins

/-- The operations of a run in which the public address stays and most resolvers
answer it, not always the same ones. -/
def Trusted (ip : GoString) (w : World) : Op → Prop
  | .refresh env _ => Agreed ip env
  | .upsertRecord _ _ _ => True
  | .serverRefreshRecord _ _ _ => False
  | .serverRefreshAddress env _ => Agreed ip env
  | .elsewhere c => c.zones = w.zones

theorem Trusted.steady {ip : GoString} {w : World} {op : Op}
    (h : Trusted ip w op) : Steady ip w op := by
  cases op with
  | refresh env o => exact Agreed.consensus h
  | upsertRecord env o input => trivial
  | serverRefreshRecord env o id => exact h.elim
  | serverRefreshAddress env o => exact Agreed.consensus h
  | elsewhere c => exact h

/-- **A faulty minority is harmless.**  In a run of passes, saves and address
refreshes during each of which those resolvers decide that answer one address,
the others may answer anything, and differently each time: the address stays the
current one, nothing else is written to a record set, and no record set is
written twice. -/
theorem faulty_minority_is_harmless (ip : GoString) (ops : List Op)
    (w w' : World) (hcur : CurrentIs ip w.addresses)
    (halong : operations.Along (Trusted ip) w ops)
    (hrun : operations.run w ops = some w') :
    CurrentIs ip w'.addresses ∧
    ∃ es, w'.events = w.events ++ es ∧
      (∀ r addr before after, .writeA r addr before after ∈ es →
        after.values = [ip]) ∧
      (es.filterMap setKey).Nodup := by
  have hsteady : operations.Along (Steady ip) w ops :=
    operations.along_mono (fun _ _ => Trusted.steady) ops w halong
  have hrests := run_rests hcur hsteady hrun
  obtain ⟨es, hes, -, hnodup, hwrites⟩ := hrests.wrote.once
  refine ⟨hrests.current, es, hes, ?_, hnodup⟩
  intro r addr before after hmem
  exact (hwrites r addr before after hmem).2.2

/-- Three resolvers, of which the last one is down or hostile. -/
private def three : List GoString :=
  ["https://one.example", "https://two.example", "https://three.example"]

private def served (last : Except GoError Body) : Network where
  parse entry := .ok ⟨"https", [], entry⟩
  quote := id
  web :=
    { newRequest := fun _ => .ok ()
      get := fun url =>
        if url = lit "https://three.example" then last
        else .ok ⟨"203.0.113.9", none⟩ }
  exchange _ _ := .error .api

private def passEnv (last : Except GoError Body) (order : List GoString) : Env :=
  { Env.sample with
    consensus4 := returned (resolveWithConsensus "ipv4"
      (three.map (resolveEntry (served last) · false)) order) }

private def hostile : Except GoError Body := .ok ⟨"198.51.100.7", none⟩

private theorem agreed_down :
    Agreed "203.0.113.9" (passEnv (.error .api) ["203.0.113.9"]) := by
  refine ⟨served (.error .api), three, _, ?_, ?_, rfl⟩
  · exact .inl (by decide +kernel)
  · unfold GoMap.Ranges
    decide +kernel

private theorem agreed_hostile :
    Agreed "203.0.113.9"
      (passEnv hostile ["198.51.100.7", "203.0.113.9"]) := by
  refine ⟨served hostile, three, _, ?_, ?_, rfl⟩
  · exact .inl (by decide +kernel)
  · unfold GoMap.Ranges
    decide +kernel

private def home : Elsewhere where
  records := Table.empty.insert fun id =>
    ⟨id, "token", 7, "example.org", "home", 60, none, purposeDDNS, false, none⟩
  certificates := .empty
  tasks := .empty
  taskRuns := .empty
  zones := fun _ _ => none
  pending := fun _ => false

/-- The third resolver is down in one pass and answers another address in the
next. -/
private def outage : List Op :=
  [.elsewhere home, .refresh (passEnv (.error .api) ["203.0.113.9"]) .quiet,
    .refresh (passEnv hostile ["198.51.100.7", "203.0.113.9"]) .quiet]

theorem faulty_minority_is_harmless_outage :
    ∃ w', operations.run (World.init fun _ _ => none) outage = some w' ∧
      CurrentIs "203.0.113.9" w'.addresses ∧
      ∃ es, w'.events = [] ++ es ∧
        (∀ r addr before after, .writeA r addr before after ∈ es →
          after.values = [lit "203.0.113.9"]) ∧
        (es.filterMap setKey).Nodup :=
  ⟨_, rfl, faulty_minority_is_harmless "203.0.113.9" outage
    (World.init fun _ _ => none) _ (fun _ ha => absurd ha List.not_mem_nil)
    ⟨rfl, agreed_down, agreed_hostile, trivial⟩ rfl⟩

end Hdns.Ports.FaultyResolvers

import Hdns.Ports.Challenges
import Hdns.Verified.Machine
import Mathlib.Data.List.Induction

/-!
# Concurrent calls of providers

A thread of this machine is one call of `Present` or `CleanUp` of some provider;
a step is its locked step or one of its requests, each under an oracle of its
own.  The order in which the calls have taken their locks is recorded beside
the state and read by no step.

## Main results

* `pendingOf` — the challenges presented and not cleaned up, from that order.
* `next_zones` — a step changes no record set but the one of its call.
-/

namespace Hdns.Ports.ChallengeRuns

open Hdns.Verified
open Hdns.Ports.Schema
open Hdns.Ports.Challenges

/-! ## The machine -/

inductive Op where
  | present
  | cleanUp
  deriving DecidableEq, Repr

/-- A call: the function, its provider and its challenge. -/
structure Turn (ι : Type) where
  op : Op
  k : ι
  c : Challenge
  deriving DecidableEq, Repr

/-- The first step of a call. -/
def Turn.pc {ι : Type} (t : Turn ι) : Pc ι :=
  match t.op with
  | .present => .present t.k t.c
  | .cleanUp => .cleanUp t.k t.c

/-- The call whose locked step comes next. -/
def locks {ι : Type} : Pc ι → Option (Turn ι)
  | .present k c => some ⟨.present, k, c⟩
  | .cleanUp k c => some ⟨.cleanUp, k, c⟩
  | _ => none

/-- The zones and the providers, the calls, the calls that have taken their
locked step in the order they did, and the place of each of them there. -/
structure State (ι : Type) where
  dns : Dns ι
  threads : Pool (Pc ι)
  history : List (Turn ι)
  place : Nat → Nat

/-- Before any call. -/
def start {ι : Type} (zones : Zones) (providers : ι → Provider) : State ι :=
  ⟨⟨zones, providers⟩, fun _ => .idle, [], fun _ => 0⟩

/-- A label: thread `i` starts a call or takes its next step. -/
inductive Label (ι : Type) where
  | call (i : Nat) (t : Turn ι)
  | next (i : Nat) (o : Oracle Call)

section Machine

variable {ι : Type} [DecidableEq ι]

/-- Thread `i` has taken a step to `pc`. -/
def State.moved (s : State ι) (i : Nat) (w : Dns ι) (pc : Pc ι) :
    State ι where
  dns := w
  threads := s.threads.set i pc
  history := s.history ++ (locks (s.threads i)).toList
  place := if (locks (s.threads i)).isSome then
    Function.update s.place i s.history.length else s.place

/-- The machine of concurrent calls. -/
def calls (info : GoString → GoString → ChallengeInfo) :
    Machine (State ι) (Label ι) where
  step s
    | .call i t =>
        match s.threads i with
        | .idle => some { s with threads := s.threads.set i t.pc }
        | _ => none
    | .next i o =>
        match (s.threads i).next info o ⟨s.dns, 0⟩ with
        | (.ok pc, t) => some (s.moved i t.state pc)
        | (.error _, _) => none

/-- **What a step does.** -/
theorem calls_step_cases {info : GoString → GoString → ChallengeInfo}
    {s s' : State ι} {l : Label ι} (h : (calls info).step s l = some s') :
    (∃ i t, l = .call i t ∧ s.threads i = .idle ∧
        s' = { s with threads := s.threads.set i t.pc }) ∨
      ∃ i o pc t, l = .next i o ∧
        (s.threads i).next info o ⟨s.dns, 0⟩ = (.ok pc, t) ∧
        s' = s.moved i t.state pc := by
  cases l with
  | call i t =>
      simp only [calls] at h
      split at h
      · next hidle => exact .inl ⟨i, t, rfl, hidle, (Option.some.inj h).symm⟩
      · cases h
  | next i o =>
      simp only [calls] at h
      rcases hrun : (s.threads i).next info o ⟨s.dns, 0⟩ with ⟨err | pc, t⟩
      · rw [hrun] at h
        cases h
      · rw [hrun] at h
        exact .inr ⟨i, o, pc, t, rfl, hrun, (Option.some.inj h).symm⟩

end Machine

/-! ## What is pending, and what is published -/

/-- The challenges presented and not cleaned up since. -/
def pendingOf {ι : Type} [DecidableEq ι] (history : List (Turn ι)) :
    List (ι × Challenge) :=
  history.foldl (fun ps t =>
    match t.op with
    | .present => ps ++ [(t.k, t.c)]
    | .cleanUp => ps.filter fun x => x ≠ (t.k, t.c)) []

theorem pendingOf_present {ι : Type} [DecidableEq ι]
    (history : List (Turn ι)) (k : ι) (c : Challenge) :
    pendingOf (history ++ [⟨.present, k, c⟩]) =
      pendingOf history ++ [(k, c)] := by
  rw [pendingOf, List.foldl_append]
  rfl

theorem pendingOf_cleanUp {ι : Type} [DecidableEq ι]
    (history : List (Turn ι)) (k : ι) (c : Challenge) :
    pendingOf (history ++ [⟨.cleanUp, k, c⟩]) =
      (pendingOf history).filter fun x => x ≠ (k, c) := by
  rw [pendingOf, List.foldl_append]
  rfl

/-- What is pending has been presented. -/
theorem mem_pendingOf {ι : Type} [DecidableEq ι] {k : ι} {c : Challenge}
    (history : List (Turn ι)) (h : (k, c) ∈ pendingOf history) :
    ⟨.present, k, c⟩ ∈ history := by
  induction history using List.reverseRecOn with
  | nil => cases h
  | append_singleton history t ih =>
      obtain ⟨op, k', c'⟩ := t
      cases op with
      | present =>
          rw [pendingOf_present, List.mem_append, List.mem_singleton] at h
          rcases h with h | h
          · exact List.mem_append_left _ (ih h)
          · obtain ⟨rfl, rfl⟩ := Prod.mk.inj h
            exact List.mem_append_right _ (List.mem_singleton.mpr rfl)
      | cleanUp =>
          rw [pendingOf_cleanUp] at h
          exact List.mem_append_left _ (ih (List.mem_of_mem_filter h))

/-- The record set of a call that has taken its locked step and has not
returned. -/
def siteOf {ι : Type} : Pc ι → Option Site
  | .upsert _ site _ => some site
  | .put _ site _ _ => some site
  | .lookup _ site => some site
  | .drop _ site => some site
  | _ => none

/-- The values of a TXT record set, none where there is no record set. -/
def published (z : Zones) (site : Site) : List GoString :=
  (z site.zoneID site.name).elim [] RRSet.values

theorem published_set (z : Zones) (x : Site) (r : RRSet) :
    published (z.set x.zoneID x.name r) x = r.values := by
  simp [published]

theorem published_remove (z : Zones) (x : Site) :
    published (removeRRSet z x.zoneID x.name) x = [] := by
  simp [published, removeRRSet]

/-! ## The locked step -/

section Locked

variable {ι : Type} [DecidableEq ι]
  (info : GoString → GoString → ChallengeInfo)

/-- The values `Present` and `CleanUp` leave under the mutex. -/
def valuesAfter (p : Provider) (t : Turn ι) : List GoString :=
  match t.op with
  | .present => p.values (p.siteOf info t.c).name ++ [t.c.value info]
  | .cleanUp => []

/-- The zones stay and the provider of the call has its new values. -/
def lockedDns (w : Dns ι) (t : Turn ι) : Dns ι :=
  let p := w.providers t.k
  { w with
    providers := Function.update w.providers t.k
      (p.setValues (p.siteOf info t.c).name (valuesAfter info p t)) }

/-- Where a call goes to from its locked step. -/
def afterLock (p : Provider) (t : Turn ι) : Pc ι :=
  match t.op with
  | .present => .upsert t.k (p.siteOf info t.c) (valuesAfter info p t)
  | .cleanUp => .lookup t.k (p.siteOf info t.c)

/-- The locked step needs no answer. -/
theorem next_lock {pc : Pc ι} {t : Turn ι} (h : locks pc = some t)
    (o : Oracle Call) (s : Sys (Dns ι)) :
    pc.next info o s = (.ok (afterLock info (s.state.providers t.k) t),
      ⟨lockedDns info s.state t, s.clock⟩) := by
  cases pc with
  | present k c =>
      obtain rfl := Option.some.inj h
      rfl
  | cleanUp k c =>
      obtain rfl := Option.some.inj h
      rfl
  | _ => cases h

end Locked

/-! ## Frame -/

section Frame

variable {ι : Type}

/-- Two states of the zones agree away from a record set. -/
def AgreeOff (site : Option Site) (w w' : Dns ι) : Prop :=
  ∀ x : Site, site ≠ some x →
    w'.zones x.zoneID x.name = w.zones x.zoneID x.name

theorem AgreeOff.refl (site : Option Site) (w : Dns ι) :
    AgreeOff site w w := fun _ _ => rfl

theorem AgreeOff.trans (site : Option Site) (w₁ w₂ w₃ : Dns ι)
    (h : AgreeOff site w₁ w₂) (h' : AgreeOff site w₂ w₃) :
    AgreeOff site w₁ w₃ := fun x hx => (h' x hx).trans (h x hx)

theorem agreeOff_set (w : Dns ι) (site : Site) (r : RRSet) :
    AgreeOff (some site) w
      { w with zones := w.zones.set site.zoneID site.name r } := by
  intro x hx
  unfold Zones.set
  exact if_neg fun h => hx (congrArg some (Site.ext h.1.symm h.2.symm))

theorem agreeOff_remove (w : Dns ι) (site : Site) :
    AgreeOff (some site) w
      { w with zones := removeRRSet w.zones site.zoneID site.name } := by
  intro x hx
  unfold removeRRSet
  exact if_neg fun h => hx (congrArg some (Site.ext h.1.symm h.2.symm))

section Keeps

variable {R : Dns ι → Dns ι → Prop} (hrefl : ∀ w, R w w)
  (htrans : ∀ w₁ w₂ w₃, R w₁ w₂ → R w₂ w₃ → R w₁ w₃) (o : Oracle Call)

include hrefl

theorem findTXT_keeps (zoneID : Int) (name : GoString) :
    Prog.Keeps o R (findTXT zoneID name : Solving ι _) :=
  .mapError (.query hrefl) _

theorem putTXT_keeps (site : Site) (vals : List GoString) (ttl : Int)
    (found : Option RRSet)
    (hset : ∀ w r, R w
      { w with zones := w.zones.set site.zoneID site.name r }) :
    Prog.Keeps o R
      (putTXT site.zoneID site.name vals ttl found : Solving ι Unit) := by
  unfold putTXT
  cases found with
  | none =>
      refine .mapError (.call hrefl fun w => ?_) _
      split
      · exact hrefl w
      · exact hset w _
  | some _ =>
      refine .mapError (.call hrefl fun w => ?_) _
      split
      · exact hrefl w
      · exact hset w _

theorem dropTXT_keeps (site : Site)
    (hremove : ∀ w, R w
      { w with zones := removeRRSet w.zones site.zoneID site.name }) :
    Prog.Keeps o R (dropTXT site.zoneID site.name : Solving ι Unit) := by
  refine .mapError (.call hrefl fun w => ?_) _
  split
  · exact hrefl w
  · exact hremove w

include htrans

/-- What a step does to the world, whatever goes wrong: the locked step, or a
write of the call's record set. -/
theorem next_keeps [DecidableEq ι]
    (info : GoString → GoString → ChallengeInfo) (pc : Pc ι)
    (hlock : ∀ t, locks pc = some t → ∀ w, R w (lockedDns info w t))
    (hset : ∀ site, siteOf pc = some site → ∀ w r, R w
      { w with zones := w.zones.set site.zoneID site.name r })
    (hremove : ∀ site, siteOf pc = some site → ∀ w, R w
      { w with zones := removeRRSet w.zones site.zoneID site.name }) :
    Prog.Keeps o R (pc.next info) := by
  cases hpc : locks pc with
  | some t =>
      intro s
      unfold Prog.wp
      rw [next_lock info hpc]
      exact hlock t hpc s.state
  | none =>
      cases pc with
      | idle => exact .throw hrefl _
      | returned r => exact .throw hrefl _
      | present k c => cases hpc
      | cleanUp k c => cases hpc
      | upsert k site vals =>
          refine .bind htrans (.attempt (findTXT_keeps hrefl o _ _)) fun r => ?_
          cases r with
          | error err => exact .pure hrefl _
          | ok found => exact .pure hrefl _
      | put k site vals found =>
          exact .bind htrans
            (.attempt (putTXT_keeps hrefl o site vals 60 found (hset site rfl)))
            fun _ => .pure hrefl _
      | lookup k site =>
          refine .bind htrans (.attempt (findTXT_keeps hrefl o _ _)) fun r => ?_
          cases r with
          | error err => exact .pure hrefl _
          | ok found => cases found <;> exact .pure hrefl _
      | drop k site =>
          exact .bind htrans
            (.attempt (dropTXT_keeps hrefl o site (hremove site rfl)))
            fun _ => .pure hrefl _

end Keeps

variable [DecidableEq ι] (info : GoString → GoString → ChallengeInfo)

/-- **Frame lemma.**  A step changes no record set but the one of its call,
whatever goes wrong. -/
theorem next_zones (o : Oracle Call) (pc : Pc ι) :
    Prog.Keeps o (AgreeOff (siteOf pc)) (pc.next info) := by
  refine next_keeps (AgreeOff.refl _) (AgreeOff.trans _) o info pc ?_ ?_ ?_
  · exact fun t _ w x _ => rfl
  · intro site hsite w r
    rw [hsite]
    exact agreeOff_set w site r
  · intro site hsite w
    rw [hsite]
    exact agreeOff_remove w site

end Frame

/-! ## Steps that are answered -/

section Answered

variable {ι : Type} [DecidableEq ι]
  {info : GoString → GoString → ChallengeInfo} {s : Sys (Dns ι)}

theorem next_upsert (k : ι) (site : Site) (vals : List GoString) :
    (Pc.upsert k site vals).next info .quiet s =
      (.ok (.put k site vals (s.state.zones site.zoneID site.name)),
        ⟨s.state, s.clock + 1⟩) := rfl

/-- A create or overwrite that fits what is there. -/
theorem next_put (k : ι) (site : Site) (vals : List GoString)
    (found : Option RRSet)
    (h : (s.state.zones site.zoneID site.name).isSome = found.isSome) :
    ∃ r : RRSet, r.values = vals.map quoteTXTValue ∧
      (Pc.put k site vals found).next info .quiet s =
        (.ok (.returned (.ok ())), ⟨{ s.state with
          zones := s.state.zones.set site.zoneID site.name r },
          s.clock + 1⟩) := by
  cases found with
  | none =>
      refine ⟨⟨60, vals.map quoteTXTValue⟩, rfl, ?_⟩
      cases hzone : s.state.zones site.zoneID site.name with
      | none =>
          simp only [Pc.next, putTXT, createTXT, Prog.bind_apply, Prog.attempt,
            Prog.mapError, Prog.call, Oracle.quiet, hzone]
          rfl
      | some _ => simp [hzone] at h
  | some _ =>
      cases hzone : s.state.zones site.zoneID site.name with
      | none => simp [hzone] at h
      | some old =>
          refine ⟨⟨old.ttl, vals.map quoteTXTValue⟩, rfl, ?_⟩
          simp only [Pc.next, putTXT, setTXT, Prog.bind_apply, Prog.attempt,
            Prog.mapError, Prog.call, Oracle.quiet, hzone]
          rfl

theorem next_lookup (k : ι) (site : Site) :
    (Pc.lookup k site).next info .quiet s =
      (.ok (if (s.state.zones site.zoneID site.name).isSome then .drop k site
        else .returned (.ok ())), ⟨s.state, s.clock + 1⟩) := by
  simp only [Pc.next, findTXT, getTXT, Prog.bind_apply, Prog.attempt,
    Prog.mapError, Prog.query, Prog.call, Oracle.quiet]
  cases s.state.zones site.zoneID site.name with
  | none => rfl
  | some _ => rfl

/-- A delete of what is there. -/
theorem next_drop (k : ι) (site : Site)
    (h : (s.state.zones site.zoneID site.name).isSome = true) :
    (Pc.drop k site).next info .quiet s = (.ok (.returned (.ok ())),
      ⟨{ s.state with
        zones := removeRRSet s.state.zones site.zoneID site.name },
        s.clock + 1⟩) := by
  obtain ⟨found, hfound⟩ := Option.isSome_iff_exists.mp h
  simp only [Pc.next, dropTXT, deleteTXT, Prog.bind_apply, Prog.attempt,
    Prog.mapError, Prog.call, Oracle.quiet, hfound]
  rfl

end Answered

end Hdns.Ports.ChallengeRuns

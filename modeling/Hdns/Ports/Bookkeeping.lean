import Hdns.Ports.ChallengeRuns

/-!
# The bookkeeping of one provider

A provider keeps the values it has presented by name, so that the challenges of
a domain and of its wildcard share one record set.  The list is updated under a
mutex and published after it, and `CleanUp` drops a name as a whole.  What the
record set holds in the end is therefore a matter of the order of the requests.

## Main results

* `InOrder` — requests are answered and go out in the order of the locked
  steps, and a challenge is cleaned up only when no other is pending there.
* `inv_step`, `pending_values_are_published` — in runs in that order, a record
  set holds the values of the pending challenges once no call is under way.
-/

namespace Hdns.Ports.Bookkeeping

open Hdns.Verified
open Hdns.Ports.Schema
open Hdns.Ports.Challenges
open Hdns.Ports.ChallengeRuns

variable (info : GoString → GoString → ChallengeInfo) (zoneID : Int)
  (zone : GoString)

/-- The record set of a challenge. -/
def challengeSite (c : Challenge) : Site :=
  (newProvider zoneID zone).siteOf info c

/-- The record set holds the values of the challenges pending there. -/
def PendingPublished (s : State Unit) (site : Site) : Prop :=
  ∀ v, v ∈ published s.dns.zones site ↔
    ∃ x ∈ pendingOf s.history, challengeSite info zoneID zone x.2 = site ∧
      v = quoteTXTValue (x.2.value info)

/-- A request is answered, and every call that has taken its locked step at
the record set before has returned; the locked step of a `CleanUp` finds no
other challenge pending at its record set. -/
def InOrder (s : State Unit) : Label Unit → Prop
  | .call _ _ => True
  | .next i o =>
      (∀ site, siteOf (s.threads i) = some site → o = .quiet ∧
        ∀ j, siteOf (s.threads j) = some site → s.place i ≤ s.place j) ∧
      ∀ c, s.threads i = .cleanUp () c → ∀ x ∈ pendingOf s.history,
        challengeSite info zoneID zone x.2 = challengeSite info zoneID zone c →
          x = ((), c)

/-! ## What a step in order does -/

/-- The values a call will have published. -/
def leaves : Pc Unit → List GoString
  | .upsert _ _ vals => vals
  | .put _ _ vals _ => vals
  | _ => []

/-- Whether the record set was there, once it has been looked up. -/
def found : Pc Unit → Option Bool
  | .put _ _ _ found => some found.isSome
  | .drop _ _ => some true
  | _ => none

/-- A call that has not returned takes its locked step, looks its record set
up, or leaves it as it should be. -/
inductive Moves (s : State Unit) (i : Nat) : State Unit → Prop
  | locked (t : Turn Unit) (hlocks : locks (s.threads i) = some t) :
      Moves s i (s.moved i (lockedDns info s.dns t)
        (afterLock info (s.dns.providers t.k) t))
  | looked (x : Site) (pc : Pc Unit) (hsite : siteOf (s.threads i) = some x)
      (hsite' : siteOf pc = some x)
      (hleaves : leaves pc = leaves (s.threads i))
      (hfound : found pc = some (s.dns.zones x.zoneID x.name).isSome) :
      Moves s i { s with threads := s.threads.set i pc }
  | done (x : Site) (z : Zones) (pc : Pc Unit)
      (hsite : siteOf (s.threads i) = some x) (hsite' : siteOf pc = none)
      (hpublished : published z x = (leaves (s.threads i)).map quoteTXTValue)
      (hframe : ∀ y : Site, y ≠ x →
        z y.zoneID y.name = s.dns.zones y.zoneID y.name) :
      Moves s i { s with
        dns := { s.dns with zones := z }, threads := s.threads.set i pc }

/-- A step of a call whose locked step is behind it. -/
theorem moved_of_site {s : State Unit} {i : Nat} {x : Site}
    (hsite : siteOf (s.threads i) = some x) (w : Dns Unit) (pc : Pc Unit) :
    s.moved i w pc = { s with dns := w, threads := s.threads.set i pc } := by
  have hlocks : locks (s.threads i) = none := by
    cases hpc : s.threads i with
    | present k c => rw [hpc] at hsite; cases hsite
    | cleanUp k c => rw [hpc] at hsite; cases hsite
    | _ => rfl
  simp [State.moved, hlocks]

/-- The record sets a request leaves alone. -/
private theorem zones_of_agreeOff {x y : Site} {w w' : Dns Unit}
    (h : AgreeOff (some x) w w') (hne : y ≠ x) :
    w'.zones y.zoneID y.name = w.zones y.zoneID y.name :=
  h y fun heq => hne (Option.some.inj heq).symm

/-- **Effect lemma.**  A step in order, of a call that knows whether its record
set is there once it has looked it up. -/
theorem next_moves {s : State Unit} {i : Nat} {o : Oracle Call} {pc : Pc Unit}
    {t : Sys (Dns Unit)}
    (hfound : ∀ x b, siteOf (s.threads i) = some x →
      found (s.threads i) = some b →
        (s.dns.zones x.zoneID x.name).isSome = b)
    (horder : InOrder info zoneID zone s (.next i o))
    (hnext : (s.threads i).next info o ⟨s.dns, 0⟩ = (.ok pc, t)) :
    Moves info s i (s.moved i t.state pc) := by
  cases hpc : s.threads i with
  | idle => rw [hpc] at hnext; cases hnext
  | returned r => rw [hpc] at hnext; cases hnext
  | present k c =>
      have hlocks : locks (s.threads i) = some ⟨.present, k, c⟩ := by
        rw [hpc]
        rfl
      rw [next_lock info hlocks] at hnext
      obtain ⟨hok, rfl⟩ := Prod.mk.inj hnext
      obtain rfl := Except.ok.inj hok
      exact .locked _ hlocks
  | cleanUp k c =>
      have hlocks : locks (s.threads i) = some ⟨.cleanUp, k, c⟩ := by
        rw [hpc]
        rfl
      rw [next_lock info hlocks] at hnext
      obtain ⟨hok, rfl⟩ := Prod.mk.inj hnext
      obtain rfl := Except.ok.inj hok
      exact .locked _ hlocks
  | upsert k x vals =>
      have hsite : siteOf (s.threads i) = some x := by rw [hpc]; rfl
      obtain ⟨rfl, -⟩ := horder.1 x hsite
      rw [hpc, next_upsert] at hnext
      obtain ⟨hok, rfl⟩ := Prod.mk.inj hnext
      obtain rfl := Except.ok.inj hok
      rw [moved_of_site hsite]
      exact .looked x _ hsite rfl (by rw [hpc]; rfl) rfl
  | put k x vals rrset =>
      have hsite : siteOf (s.threads i) = some x := by rw [hpc]; rfl
      obtain ⟨rfl, -⟩ := horder.1 x hsite
      obtain ⟨r, hr, hput⟩ := @next_put Unit _ info ⟨s.dns, 0⟩ k x vals rrset
        (hfound x _ hsite (by rw [hpc]; rfl))
      rw [hpc, hput] at hnext
      obtain ⟨hok, rfl⟩ := Prod.mk.inj hnext
      obtain rfl := Except.ok.inj hok
      rw [moved_of_site hsite]
      refine .done x _ _ hsite rfl ?_ fun y hne => ?_
      · rw [published_set, hr, hpc]
        rfl
      · exact zones_of_agreeOff (agreeOff_set s.dns x r) hne
  | lookup k x =>
      have hsite : siteOf (s.threads i) = some x := by rw [hpc]; rfl
      obtain ⟨rfl, -⟩ := horder.1 x hsite
      rw [hpc, next_lookup] at hnext
      obtain ⟨hok, rfl⟩ := Prod.mk.inj hnext
      obtain rfl := Except.ok.inj hok
      rw [moved_of_site hsite]
      cases hzone : s.dns.zones x.zoneID x.name with
      | none =>
          refine .done x s.dns.zones _ hsite rfl ?_ fun _ _ => rfl
          rw [published, hzone, hpc]
          rfl
      | some old =>
          exact .looked x _ hsite rfl (by rw [hpc]; rfl) (by rw [hzone]; rfl)
  | drop k x =>
      have hsite : siteOf (s.threads i) = some x := by rw [hpc]; rfl
      obtain ⟨rfl, -⟩ := horder.1 x hsite
      rw [hpc, next_drop k x (hfound x _ hsite (by rw [hpc]; rfl))] at hnext
      obtain ⟨hok, rfl⟩ := Prod.mk.inj hnext
      obtain rfl := Except.ok.inj hok
      rw [moved_of_site hsite]
      refine .done x _ _ hsite rfl ?_ fun y hne => ?_
      · rw [published_remove, hpc]
        rfl
      · exact zones_of_agreeOff (agreeOff_remove s.dns x) hne

/-! ## The invariant -/

/-- What holds in every state of a run in order: the provider's lists are the
values of the pending challenges; calls under way at one record set are told
apart by their places, and only the first of them knows whether it is there;
the last of them will leave the provider's list, which the record set holds
when there is none. -/
structure Inv (s : State Unit) : Prop where
  provider : (s.dns.providers ()).zoneID = zoneID ∧
    (s.dns.providers ()).zone = zone
  values : ∀ name, (s.dns.providers ()).values name =
    ((pendingOf s.history).filter fun x =>
      (challengeSite info zoneID zone x.2).name = name).map
        fun x => x.2.value info
  inZone : ∀ i x, siteOf (s.threads i) = some x → x.zoneID = zoneID
  places : ∀ i x, siteOf (s.threads i) = some x →
    s.place i < s.history.length
  distinct : ∀ i j x, siteOf (s.threads i) = some x →
    siteOf (s.threads j) = some x → s.place i = s.place j → i = j
  first : ∀ i x b, siteOf (s.threads i) = some x →
    found (s.threads i) = some b →
      (s.dns.zones x.zoneID x.name).isSome = b ∧
        ∀ j, siteOf (s.threads j) = some x → s.place i ≤ s.place j
  last : ∀ i x, siteOf (s.threads i) = some x →
    (∀ j, siteOf (s.threads j) = some x → s.place j ≤ s.place i) →
      leaves (s.threads i) = (s.dns.providers ()).values x.name
  settled : ∀ t ∈ s.history,
    (∀ j, siteOf (s.threads j) ≠
      some (challengeSite info zoneID zone t.c)) →
    published s.dns.zones (challengeSite info zoneID zone t.c) =
      ((s.dns.providers ()).values
        (challengeSite info zoneID zone t.c).name).map quoteTXTValue

variable {info zoneID zone}

theorem inv_start (zones : Zones) : Inv info zoneID zone
    (start zones fun _ => newProvider zoneID zone) where
  provider := ⟨rfl, rfl⟩
  values := fun _ => rfl
  inZone := nofun
  places := nofun
  distinct := nofun
  first := nofun
  last := nofun
  settled := nofun

/-- A provider that has kept its zone publishes a challenge where it did at
first. -/
private theorem Inv.siteOf_eq {s : State Unit} (h : Inv info zoneID zone s)
    (c : Challenge) :
    (s.dns.providers ()).siteOf info c = challengeSite info zoneID zone c := by
  unfold challengeSite Provider.siteOf Provider.relativeName
  rw [h.provider.1, h.provider.2]
  rfl

private theorem set_cases {threads : Pool (Pc Unit)} {i : Nat} {pc : Pc Unit}
    {P : Nat → Pc Unit → Prop} (hi : P i pc)
    (hrest : ∀ j, j ≠ i → P j (threads j)) (j : Nat) :
    P j (threads.set i pc j) :=
  (Pool.forall_set (P := P) threads i pc).mpr ⟨hi, hrest⟩ j

/-- A lookup keeps the invariant. -/
private theorem inv_looked {s : State Unit} {i : Nat} {x : Site} {pc : Pc Unit}
    (h : Inv info zoneID zone s)
    (hfirst : ∀ j, siteOf (s.threads j) = some x → s.place i ≤ s.place j)
    (hsite : siteOf (s.threads i) = some x) (hsite' : siteOf pc = some x)
    (hleaves : leaves pc = leaves (s.threads i))
    (hfound : found pc = some (s.dns.zones x.zoneID x.name).isSome) :
    Inv info zoneID zone { s with threads := s.threads.set i pc } := by
  -- the call stays at its record set
  have hsites : ∀ j, siteOf (s.threads.set i pc j) = siteOf (s.threads j) :=
    set_cases (P := fun j pc => siteOf pc = siteOf (s.threads j))
      (hsite'.trans hsite.symm) fun _ _ => rfl
  have hleft : ∀ j, leaves (s.threads.set i pc j) = leaves (s.threads j) :=
    set_cases (P := fun j pc => leaves pc = leaves (s.threads j))
      hleaves fun _ _ => rfl
  constructor
  · exact h.provider
  · exact h.values
  · simpa only [hsites] using h.inZone
  · simpa only [hsites] using h.places
  · simpa only [hsites] using h.distinct
  · simp only [hsites]
    refine set_cases (P := fun j pc => ∀ y b, siteOf (s.threads j) = some y →
      found pc = some b → (s.dns.zones y.zoneID y.name).isSome = b ∧
        ∀ j', siteOf (s.threads j') = some y → s.place j ≤ s.place j')
      (fun y b hy hb => ?_) fun j _ => h.first j
    obtain rfl := Option.some.inj (hsite.symm.trans hy)
    exact ⟨Option.some.inj (hfound.symm.trans hb), hfirst⟩
  · simpa only [hsites, hleft] using h.last
  · simpa only [hsites] using h.settled

/-- The last request of a call keeps the invariant. -/
private theorem inv_done {s : State Unit} {i : Nat} {x : Site} {z : Zones}
    {pc : Pc Unit} (h : Inv info zoneID zone s)
    (hfirst : ∀ j, siteOf (s.threads j) = some x → s.place i ≤ s.place j)
    (hsite : siteOf (s.threads i) = some x) (hsite' : siteOf pc = none)
    (hpublished : published z x = (leaves (s.threads i)).map quoteTXTValue)
    (hframe : ∀ y : Site, y ≠ x →
      z y.zoneID y.name = s.dns.zones y.zoneID y.name) :
    Inv info zoneID zone { s with
      dns := { s.dns with zones := z }, threads := s.threads.set i pc } := by
  -- the calls under way are those from before without this one
  have hsites : ∀ j y, siteOf (s.threads.set i pc j) = some y →
      j ≠ i ∧ siteOf (s.threads j) = some y ∧
        s.threads.set i pc j = s.threads j := by
    intro j y hy
    by_cases hji : j = i
    · subst hji
      rw [Pool.set_self, hsite'] at hy
      cases hy
    · rw [Pool.set_ne _ _ hji] at hy ⊢
      exact ⟨hji, hy, rfl⟩
  have hrest : ∀ j, j ≠ i → s.threads.set i pc j = s.threads j :=
    fun j hji => Pool.set_ne _ _ hji
  constructor
  · exact h.provider
  · exact h.values
  · exact fun j y hy => h.inZone j y (hsites j y hy).2.1
  · exact fun j y hy => h.places j y (hsites j y hy).2.1
  · exact fun j j' y hy hy' =>
      h.distinct j j' y (hsites j y hy).2.1 (hsites j' y hy').2.1
  · intro j y b hy hb
    obtain ⟨hji, hy, heq⟩ := hsites j y hy
    have hb : found (s.threads j) = some b := heq ▸ hb
    obtain ⟨hzone, hle⟩ := h.first j y b hy hb
    have hne : y ≠ x := by
      rintro rfl
      have heq : s.place i = s.place j :=
        Nat.le_antisymm (hfirst j hy) (hle i hsite)
      exact hji (h.distinct i j y hsite hy heq).symm
    refine ⟨?_, fun j' hy' => hle j' (hsites j' y hy').2.1⟩
    show (z y.zoneID y.name).isSome = b
    rw [hframe y hne]
    exact hzone
  · intro j y hy hle
    obtain ⟨hji, hold, heq⟩ := hsites j y hy
    show leaves (s.threads.set i pc j) = _
    rw [heq]
    refine h.last j y hold fun j' hy' => ?_
    by_cases hj' : j' = i
    · subst hj'
      obtain rfl := Option.some.inj (hsite.symm.trans hy')
      exact hfirst j hold
    · exact hle j' ((congrArg siteOf (hrest j' hj')).trans hy')
  · intro t ht hnone
    by_cases hx : challengeSite info zoneID zone t.c = x
    · -- the call was the only one there, so it was the last
      have hlast := h.last i x hsite fun j hj => by
        by_cases hji : j = i
        · exact Nat.le_of_eq (by rw [hji])
        · refine absurd ((congrArg siteOf (hrest j hji)).trans ?_) (hnone j)
          rw [hx]
          exact hj
      show published z _ = _
      rw [hx, hpublished, hlast]
    · have hsettled := h.settled t ht fun j hj => by
        by_cases hji : j = i
        · subst hji
          exact hx (Option.some.inj (hj.symm.trans hsite))
        · exact hnone j ((congrArg siteOf (hrest j hji)).trans hj)
      show published z _ = _
      rw [← hsettled, published, published, hframe _ hx]

/-- All record sets of the provider are in its zone. -/
private theorem challengeSite_eq_iff {c c' : Challenge} :
    challengeSite info zoneID zone c = challengeSite info zoneID zone c' ↔
      (challengeSite info zoneID zone c).name =
        (challengeSite info zoneID zone c').name :=
  ⟨congrArg Site.name, congrArg (Site.mk zoneID)⟩

/-- The pending challenges of a name after a locked step in order. -/
private theorem pending_locked {s : State Unit} {t : Turn Unit}
    (h : Inv info zoneID zone s)
    (halone : t.op = .cleanUp → ∀ x ∈ pendingOf s.history,
      challengeSite info zoneID zone x.2 = challengeSite info zoneID zone t.c →
        x = ((), t.c)) (name : GoString) :
    ((pendingOf (s.history ++ [t])).filter fun x =>
      (challengeSite info zoneID zone x.2).name = name).map
        (fun x => x.2.value info) =
      if name = (challengeSite info zoneID zone t.c).name then
        valuesAfter info (s.dns.providers ()) t
      else (s.dns.providers ()).values name := by
  obtain ⟨op, k, c⟩ := t
  cases op with
  | present =>
      rw [pendingOf_present, List.filter_append, List.map_append, ← h.values]
      unfold valuesAfter
      rw [h.siteOf_eq]
      split
      · next hname => subst hname; simp
      · next hname => simp [Ne.symm hname]
  | cleanUp =>
      rw [pendingOf_cleanUp, List.filter_filter]
      unfold valuesAfter
      split
      · next hname =>
        rw [List.map_eq_nil_iff, List.filter_eq_nil_iff]
        intro x hx
        simp only [Bool.and_eq_true, decide_eq_true_eq, not_and]
        rintro hsame hother
        exact hother (halone rfl x hx
          (challengeSite_eq_iff.mpr (hsame.trans hname)))
      · next hname =>
        rw [h.values]
        refine congrArg _ (List.filter_congr fun x hx => ?_)
        rw [Bool.eq_iff_iff, Bool.and_eq_true, decide_eq_true_eq,
          decide_eq_true_eq]
        refine ⟨fun hx => hx.1, fun hsame => ⟨hsame, ?_⟩⟩
        rintro rfl
        exact hname hsame.symm

/-- A call that is about to take its locked step is at no record set. -/
private theorem siteOf_of_locks {pc : Pc Unit} {t : Turn Unit}
    (h : locks pc = some t) : siteOf pc = none := by
  cases pc with
  | present k c => rfl
  | cleanUp k c => rfl
  | _ => cases h

/-- After it, it is at that of its challenge, to leave the provider's list. -/
private theorem afterLock_spec (p : Provider) (t : Turn Unit) :
    siteOf (afterLock info p t) = some (p.siteOf info t.c) ∧
      leaves (afterLock info p t) = valuesAfter info p t ∧
      found (afterLock info p t) = none := by
  obtain ⟨op, k, c⟩ := t
  cases op with
  | present => exact ⟨rfl, rfl, rfl⟩
  | cleanUp => exact ⟨rfl, rfl, rfl⟩

/-- The lists of the provider after a locked step. -/
private theorem values_locked {s : State Unit} (h : Inv info zoneID zone s)
    (t : Turn Unit) (name : GoString) :
    ((lockedDns info s.dns t).providers ()).values name =
      if name = (challengeSite info zoneID zone t.c).name then
        valuesAfter info (s.dns.providers ()) t
      else (s.dns.providers ()).values name := by
  have hprovider : (lockedDns info s.dns t).providers () =
      (s.dns.providers ()).setValues
        ((s.dns.providers ()).siteOf info t.c).name
        (valuesAfter info (s.dns.providers ()) t) := by
    simp [lockedDns]
  rw [hprovider, h.siteOf_eq]
  exact Function.update_apply ..

/-- A locked step in order keeps the invariant. -/
private theorem inv_locked {s : State Unit} {i : Nat} {t : Turn Unit}
    (h : Inv info zoneID zone s) (hlocks : locks (s.threads i) = some t)
    (halone : t.op = .cleanUp → ∀ x ∈ pendingOf s.history,
      challengeSite info zoneID zone x.2 = challengeSite info zoneID zone t.c →
        x = ((), t.c)) :
    Inv info zoneID zone (s.moved i (lockedDns info s.dns t)
      (afterLock info (s.dns.providers t.k) t)) := by
  obtain ⟨hsite, hleaves, hfound⟩ :=
    @afterLock_spec info (s.dns.providers ()) t
  rw [h.siteOf_eq] at hsite
  generalize afterLock info (s.dns.providers ()) t = pc at hsite hleaves hfound
  have hmoved : s.moved i (lockedDns info s.dns t) pc =
      ⟨lockedDns info s.dns t, s.threads.set i pc, s.history ++ [t],
        Function.update s.place i s.history.length⟩ := by
    simp [State.moved, hlocks]
  rw [hmoved]
  have hnowhere := siteOf_of_locks hlocks
  have hrest : ∀ j, j ≠ i → s.threads.set i pc j = s.threads j :=
    fun j hji => Pool.set_ne _ _ hji
  have hlength : (s.history ++ [t]).length = s.history.length + 1 :=
    List.length_append
  -- where a call is, and when it got there: the new one, or as before
  have hplaces : ∀ j y, siteOf (s.threads.set i pc j) = some y →
      j = i ∧ y = challengeSite info zoneID zone t.c ∧
          Function.update s.place i s.history.length j = s.history.length ∨
        j ≠ i ∧ siteOf (s.threads j) = some y ∧
          Function.update s.place i s.history.length j = s.place j ∧
          s.place j < s.history.length := by
    intro j y hy
    by_cases hji : j = i
    · subst hji
      rw [Pool.set_self, hsite] at hy
      exact .inl ⟨rfl, (Option.some.inj hy).symm, Function.update_self ..⟩
    · rw [hrest j hji] at hy
      exact .inr ⟨hji, hy, Function.update_of_ne hji .., h.places j y hy⟩
  constructor
  · refine ⟨?_, ?_⟩
    · exact h.provider.1
    · exact h.provider.2
  · intro name
    exact (values_locked h t name).trans (pending_locked h halone name).symm
  · intro j y hy
    rcases hplaces j y hy with ⟨-, rfl, -⟩ | ⟨-, hy, -⟩
    · rfl
    · exact h.inZone j y hy
  · intro j y hy
    show Function.update s.place i s.history.length j <
      (s.history ++ [t]).length
    rcases hplaces j y hy with ⟨-, -, hplace⟩ | ⟨-, -, hplace, hlt⟩
    · omega
    · omega
  · intro j j' y hy hy' heq
    have heq : Function.update s.place i s.history.length j =
        Function.update s.place i s.history.length j' := heq
    rcases hplaces j y hy with ⟨hj, -, hplace⟩ | ⟨-, hold, hplace, hlt⟩
    · rcases hplaces j' y hy' with ⟨hj', -, -⟩ | ⟨-, -, hplace', hlt'⟩
      · rw [hj, hj']
      · omega
    · rcases hplaces j' y hy' with ⟨-, -, hplace'⟩ | ⟨-, hold', hplace', -⟩
      · omega
      · exact h.distinct j j' y hold hold' (by omega)
  · intro j y b hy hb
    rcases hplaces j y hy with ⟨rfl, -, -⟩ | ⟨hji, hold, hplace, hlt⟩
    · have hb : found (s.threads.set j pc j) = some b := hb
      rw [Pool.set_self, hfound] at hb
      cases hb
    · have hb : found (s.threads.set i pc j) = some b := hb
      rw [hrest j hji] at hb
      obtain ⟨hzone, hle⟩ := h.first j y b hold hb
      refine ⟨hzone, fun j' hy' => ?_⟩
      show Function.update s.place i s.history.length j ≤
        Function.update s.place i s.history.length j'
      rcases hplaces j' y hy' with ⟨-, -, hplace'⟩ | ⟨-, hold', hplace', -⟩
      · omega
      · have := hle j' hold'
        omega
  · intro j y hy hle
    show leaves (s.threads.set i pc j) =
      ((lockedDns info s.dns t).providers ()).values y.name
    rw [values_locked h t]
    rcases hplaces j y hy with ⟨rfl, rfl, -⟩ | ⟨hji, hold, hplace, hlt⟩
    · rw [Pool.set_self, hleaves, if_pos rfl]
    · have hne : y ≠ challengeSite info zoneID zone t.c := by
        -- the new call there would come after this one
        rintro rfl
        have hnew := hle i ((congrArg siteOf (Pool.set_self _ _ _)).trans hsite)
        have hnew : Function.update s.place i s.history.length i ≤
            Function.update s.place i s.history.length j := hnew
        rw [Function.update_self] at hnew
        omega
      have hname : y.name ≠ (challengeSite info zoneID zone t.c).name :=
        fun hname => hne (Site.ext (h.inZone j y hold) hname)
      rw [hrest j hji, if_neg hname]
      refine h.last j y hold fun j' hy' => ?_
      have hji' : j' ≠ i := by
        rintro rfl
        rw [hnowhere] at hy'
        cases hy'
      have hle' := hle j' ((congrArg siteOf (hrest j' hji')).trans hy')
      have hle' : Function.update s.place i s.history.length j' ≤
          Function.update s.place i s.history.length j := hle'
      rw [Function.update_of_ne hji', hplace] at hle'
      exact hle'
  · intro t' ht' hnone
    have hne : challengeSite info zoneID zone t'.c ≠
        challengeSite info zoneID zone t.c := by
      intro heq
      refine hnone i ?_
      rw [heq]
      exact (congrArg siteOf (Pool.set_self _ _ _)).trans hsite
    have hmem : t' ∈ s.history := by
      rcases List.mem_append.mp ht' with hmem | hlast
      · exact hmem
      · exact absurd (by rw [List.mem_singleton.mp hlast]) hne
    have hname := fun hname => hne (challengeSite_eq_iff.mpr hname)
    show published s.dns.zones _ =
      (((lockedDns info s.dns t).providers ()).values _).map _
    rw [values_locked h t, if_neg hname]
    refine h.settled t' hmem fun j hj => ?_
    have hji : j ≠ i := by
      rintro rfl
      rw [hnowhere] at hj
      cases hj
    exact hnone j ((congrArg siteOf (hrest j hji)).trans hj)

/-- The start of a call keeps the invariant: it is at no record set yet. -/
private theorem inv_call {s : State Unit} {i : Nat} (t : Turn Unit)
    (h : Inv info zoneID zone s) (hidle : s.threads i = .idle) :
    Inv info zoneID zone { s with threads := s.threads.set i t.pc } := by
  have hpc : siteOf t.pc = none := by
    obtain ⟨op, k, c⟩ := t
    cases op with
    | present => rfl
    | cleanUp => rfl
  have hsites : ∀ j y, siteOf (s.threads.set i t.pc j) = some y →
      s.threads.set i t.pc j = s.threads j := by
    intro j y hy
    by_cases hji : j = i
    · subst hji
      rw [Pool.set_self, hpc] at hy
      cases hy
    · exact Pool.set_ne _ _ hji
  have hsame : ∀ j, siteOf (s.threads.set i t.pc j) = siteOf (s.threads j) :=
    set_cases (P := fun j pc => siteOf pc = siteOf (s.threads j))
      (by rw [hpc, hidle]; rfl) fun _ _ => rfl
  constructor
  · exact h.provider
  · exact h.values
  · simpa only [hsame] using h.inZone
  · simpa only [hsame] using h.places
  · simpa only [hsame] using h.distinct
  · intro j y b hy hb
    have hj := hsites j y hy
    have hb : found (s.threads j) = some b := hj ▸ hb
    simpa only [hsame] using h.first j y b ((hsame j).symm.trans hy) hb
  · intro j y hy hle
    have hlast := h.last j y ((hsame j).symm.trans hy)
      (by simpa only [hsame] using hle)
    exact (congrArg leaves (hsites j y hy)).trans hlast
  · simpa only [hsame] using h.settled

/-- **Step lemma.** -/
theorem inv_step (s : State Unit) (l : Label Unit) (s' : State Unit)
    (h : Inv info zoneID zone s) (horder : InOrder info zoneID zone s l)
    (hstep : (calls info).step s l = some s') : Inv info zoneID zone s' := by
  rcases calls_step_cases hstep with
    ⟨i, t, rfl, hidle, rfl⟩ | ⟨i, o, pc, t, rfl, hnext, rfl⟩
  · exact inv_call t h hidle
  · have hmoves := next_moves info zoneID zone
      (fun x b hx hb => (h.first i x b hx hb).1) horder hnext
    generalize s.moved i t.state pc = s' at hmoves
    cases hmoves with
    | locked t hlocks =>
        refine inv_locked h hlocks fun hop => ?_
        cases hpc : s.threads i with
        | cleanUp k c =>
            rw [hpc] at hlocks
            obtain rfl := Option.some.inj hlocks
            exact horder.2 c hpc
        | present k c =>
            rw [hpc] at hlocks
            obtain rfl := Option.some.inj hlocks
            cases hop
        | _ =>
            rw [hpc] at hlocks
            cases hlocks
    | looked x pc hsite hsite' hleaves hfound =>
        exact inv_looked h (horder.1 x hsite).2 hsite hsite' hleaves hfound
    | done x z pc hsite hsite' hpublished hframe =>
        exact inv_done h (horder.1 x hsite).2 hsite hsite' hpublished hframe

/-- No call is under way. -/
def Quiescent (s : State Unit) : Prop :=
  ∀ i, s.threads i = .idle ∨ ∃ r, s.threads i = .returned r

/-- **The pending values are published.**  From any zones and a new provider,
in every run in order of any calls, once no call is under way the record set of
every challenge presented or cleaned up so far holds exactly the values of the
challenges pending there. -/
theorem pending_values_are_published
    (info : GoString → GoString → ChallengeInfo) (zoneID : Int)
    (zone : GoString) (zones : Zones) (ls : List (Label Unit))
    (s : State Unit)
    (hrun : (calls info).run
      (start zones fun _ => newProvider zoneID zone) ls = some s)
    (horder : (calls info).Along (InOrder info zoneID zone)
      (start zones fun _ => newProvider zoneID zone) ls)
    (hquiescent : Quiescent s) :
    ∀ t ∈ s.history, PendingPublished info zoneID zone s
      (challengeSite info zoneID zone t.c) := by
  intro t ht v
  have hinv : Inv info zoneID zone s :=
    Machine.invariant_along inv_step ls _ s (inv_start zones) horder hrun
  have hnone : ∀ i, siteOf (s.threads i) ≠
      some (challengeSite info zoneID zone t.c) := by
    intro i hi
    rcases hquiescent i with hidle | ⟨r, hr⟩
    · rw [hidle] at hi
      cases hi
    · rw [hr] at hi
      cases hi
  rw [hinv.settled t ht hnone, hinv.values]
  simp only [List.mem_map, List.mem_filter, decide_eq_true_eq]
  constructor
  · rintro ⟨_, ⟨x, ⟨hx, hname⟩, rfl⟩, rfl⟩
    exact ⟨x, hx, challengeSite_eq_iff.mpr hname, rfl⟩
  · rintro ⟨x, hx, hsite, rfl⟩
    exact ⟨_, ⟨x, ⟨hx, congrArg Site.name hsite⟩, rfl⟩, rfl⟩

/-! ### A domain and its wildcard -/

/-- The challenge of a domain and that of its wildcard have one name. -/
private def acme (domain keyAuth : GoString) : ChallengeInfo :=
  ⟨GoString.lit "_acme-challenge." ++ domain.trimPrefix (GoString.lit "*.") ++
    GoString.lit ".", keyAuth⟩

private def base : Challenge := ⟨"example.org", "a"⟩
private def wildcard : Challenge := ⟨"*.example.org", "b"⟩

private def presented (i : Nat) (c : Challenge) : List (Label Unit) :=
  [.call i ⟨.present, (), c⟩, .next i .quiet, .next i .quiet, .next i .quiet]

private def cleanedUp (i : Nat) (c : Challenge) : List (Label Unit) :=
  [.call i ⟨.cleanUp, (), c⟩, .next i .quiet, .next i .quiet, .next i .quiet]

private def fresh : State Unit :=
  start (fun _ _ => none) fun _ => newProvider 7 "example.org"

private def both : Site := ⟨7, "_acme-challenge"⟩

theorem pending_values_are_published_wildcard :
    ∃ s, (calls acme).run fresh (presented 0 base ++ presented 1 wildcard) =
        some s ∧
      published s.dns.zones both =
        [GoString.lit "\"a\"", GoString.lit "\"b\""] ∧
      ∀ t ∈ s.history, PendingPublished acme 7 "example.org" s
        (challengeSite acme 7 "example.org" t.c) := by
  refine ⟨_, rfl, by decide +kernel, pending_values_are_published acme 7
    "example.org" (fun _ _ => none) (presented 0 base ++ presented 1 wildcard)
    _ rfl ?_ ?_⟩
  · refine ⟨trivial, ?_, ?_, ?_, trivial, ?_, ?_, ?_, trivial⟩
    all_goals
      refine ⟨fun site hsite => ⟨rfl, ?_⟩, fun c hc => nomatch hc⟩
      rintro (_ | _ | j) hj
    all_goals first
      | exact Nat.le_refl _
      | exact nomatch hj
  · rintro (_ | _ | i)
    · exact .inr ⟨_, rfl⟩
    · exact .inr ⟨_, rfl⟩
    · exact .inl rfl

/-- A challenge that is pending and whose value is not there. -/
private theorem not_pendingPublished {s : State Unit} {c : Challenge}
    (hpending : ((), c) ∈ pendingOf s.history)
    (hmissing : quoteTXTValue (c.value acme) ∉ published s.dns.zones
      (challengeSite acme 7 "example.org" c)) :
    ¬PendingPublished acme 7 "example.org" s
      (challengeSite acme 7 "example.org" c) :=
  fun h => hmissing ((h _).mpr ⟨((), c), hpending, rfl, rfl⟩)

/-- An earlier issuance has left its record set behind. -/
private def leftover : State Unit :=
  start (fun _ _ => some ⟨60, [GoString.lit "\"old\""]⟩)
    fun _ => newProvider 7 "example.org"

/-- Both calls take their locked steps, then the second one sends its requests,
then the first one. -/
private def crossing : List (Label Unit) :=
  [.call 0 ⟨.present, (), base⟩, .call 1 ⟨.present, (), wildcard⟩,
    .next 0 .quiet, .next 1 .quiet, .next 1 .quiet, .next 1 .quiet,
    .next 0 .quiet, .next 0 .quiet]

/-- Two ways to lose the value of the wildcard while it is pending: the
challenge of the domain is cleaned up, or its `Present` takes its locked step
first and overwrites last.  All calls return without error. -/
theorem pending_value_is_lost :
    (∃ s, (calls acme).run fresh
        (presented 0 base ++ presented 1 wildcard ++ cleanedUp 2 base) =
          some s ∧
      Quiescent s ∧ published s.dns.zones both = [] ∧
      ¬PendingPublished acme 7 "example.org" s
        (challengeSite acme 7 "example.org" wildcard)) ∧
    ∃ s, (calls acme).run leftover crossing = some s ∧
      Quiescent s ∧ published s.dns.zones both = [GoString.lit "\"a\""] ∧
      ¬PendingPublished acme 7 "example.org" s
        (challengeSite acme 7 "example.org" wildcard) := by
  constructor
  · refine ⟨_, rfl, ?_, by decide +kernel,
      not_pendingPublished (by decide +kernel) (by decide +kernel)⟩
    rintro (_ | _ | _ | i)
    · exact .inr ⟨_, rfl⟩
    · exact .inr ⟨_, rfl⟩
    · exact .inr ⟨_, rfl⟩
    · exact .inl rfl
  · refine ⟨_, rfl, ?_, by decide +kernel,
      not_pendingPublished (by decide +kernel) (by decide +kernel)⟩
    rintro (_ | _ | i)
    · exact .inr ⟨_, rfl⟩
    · exact .inr ⟨_, rfl⟩
    · exact .inl rfl

end Hdns.Ports.Bookkeeping
